import EdoPlugin.ConcurrentSubmissions
import EdoPlugin.RouteCalls

/-!
# The attempt limit under concurrent submissions

`submit_flag` counts the owner's `Fails` rows before it compares a submission, and commits the row of
a wrong one in a transaction of its own.  The rows only grow in number, so a request that begins when
the limit is reached is refused.  Requests that are already past the check are not: each of them may
commit one more row, unless the rows are still those that it counted.
-/

namespace EdoPlugin

open Interaction ChallengeType

/-! ## What submissions write -/

/-- The calls of a request whose submission is compared. -/
def judges (challengeId : Nat) (owner : Owner) : SiteOp → Prop
  | .select => True
  | .commit [.insertFail row] => row.challengeId = challengeId ∧ row.belongsTo owner = true
  | .commit [.insertFlagSolve _] | .commit [.insertSolve _] => True
  | _ => False

/-- The two databases differ in fails, finds and solves alone. -/
def PluginDb.SameButProgress (db₀ db : PluginDb) : Prop :=
  db = { db₀ with fails := db.fails, flagSolves := db.flagSolves, solves := db.solves }

namespace PluginDb.SameButProgress

variable {db₀ db : PluginDb}

theorem refl : db.SameButProgress db := rfl

theorem getChallenge (h : db₀.SameButProgress db) : db.getChallenge = db₀.getChallenge := by
  rw [h]
  rfl

theorem accounts (h : db₀.SameButProgress db) : SameAccounts db₀ db := by
  rw [h]
  exact ⟨rfl, rfl, rfl, rfl⟩

theorem apply {db' : PluginDb} {write : Write} {challengeId : Nat} {owner : Owner}
    (h : db₀.SameButProgress db) (hjudges : judges challengeId owner (.commit [write]))
    (happly : db.apply write = .ok db') : db₀.SameButProgress db' := by
  unfold SameButProgress at h ⊢
  cases write with
  | insertFail row =>
    cases happly
    rw [h]
  | insertFlagSolve row => rw [insertFlagSolve_ok happly, h]
  | insertSolve row => rw [insertSolve_ok happly, h]
  | _ => exact hjudges.elim

end PluginDb.SameButProgress

/-! ## How far a request has come -/

inductive AttemptPhase where
  | fresh
  /-- There were so many fails when it began. -/
  | begun (began : Nat)
  /-- It is within the rate limit, and has made so many queries since. -/
  | limited (began queries : Nat)
  /-- It has counted so many fails, and goes on to compare its submission. -/
  | allowed (began checked : Nat)
  /-- It has counted too many fails. -/
  | refused (began : Nat)
deriving DecidableEq, Repr

namespace AttemptPhase

/-- The fails when the request began. -/
def began : AttemptPhase → Nat
  | .fresh => 0
  | .begun began | .limited began _ | .allowed began _ | .refused began => began

def Allowed (phase : AttemptPhase) : Prop := ∃ began checked, phase = .allowed began checked

section Protocol

variable (db₀ : PluginDb) (challengeId : Nat) (owner : Owner) (maxAttempts : Int)

/-- The queries between the rate limit and the count: two for the user, one for its team. -/
def queriesBefore (owner : Owner) : Nat := if owner.ownerType = "team" then 3 else 2

def next (phase : AttemptPhase) : (op : SiteOp) → op.Res → AttemptPhase
  | .select, db =>
    let fails := UserRoutes.failCount db challengeId owner
    match phase with
    | .fresh => .begun fails
    | .limited began queries =>
      if queries < queriesBefore owner then .limited began (queries + 1)
      else if maxAttempts ≤ fails then .refused began else .allowed began fails
    | _ => phase
  | .rateLimit .., _ =>
    match phase with
    | .begun began => .limited began 0
    | _ => phase
  | _, _ => phase

def admits (phase : AttemptPhase) : SiteOp → Prop
  | .select => ∀ began, phase ≠ .refused began
  | .rateLimit .. => True
  | op => phase.Allowed ∧ judges challengeId owner op

/-- What a query shows. -/
def expected (phase : AttemptPhase) : (op : SiteOp) → op.Res → Prop
  | .select, db => db₀.SameButProgress db ∧ phase.began ≤ UserRoutes.failCount db challengeId owner
  | _, _ => True

end Protocol

end AttemptPhase

section Conformance

variable {db₀ : PluginDb} {challengeId : Nat} {owner : Owner} {maxAttempts : Int} {α : Type}
  {Q : Except PluginErr α → AttemptPhase → Prop} {began checked queries : Nat}
  {compare : FlagComparison} {userId : Int} {team : Option Int} {submission ip : String}

abbrev CountsFirst (db₀ : PluginDb) (challengeId : Nat) (owner : Owner) (maxAttempts : Int)
    (p : Plugin α) (Q : Except PluginErr α → AttemptPhase → Prop) (phase : AttemptPhase) : Prop :=
  PluginFollows (AttemptPhase.expected db₀ challengeId owner)
    (AttemptPhase.admits challengeId owner) (AttemptPhase.next challengeId owner maxAttempts) p Q phase

/-! ### Past the check -/

theorem judging_judges : Judging (judges challengeId owner) challengeId owner := by
  refine ⟨trivial, ?_, fun _ => trivial, fun _ _ _ => trivial⟩
  rintro row hchallenge rfl
  exact ⟨hchallenge, PluginDb.belongsTo_solverOf⟩

theorem attempts_judgeSubmission (howner : owner = solverOf userId team) :
    CountsFirst db₀ challengeId owner maxAttempts
      (UserRoutes.judgeSubmission compare challengeId owner userId team submission ip)
      (fun _ _ => True) (.allowed began checked) := by
  subst howner
  apply wp_mono (Conforms.of_callsOnly judging_judges.judgeSubmission _ _)
  · exact fun _ _ _ => trivial
  · intro op hop
    cases op with
    | select => exact fun _ h => by cases h
    | rateLimit _ _ _ => trivial
    | _ => exact ⟨⟨_, _, rfl⟩, hop⟩
  · intro op res _
    cases op <;> rfl

/-! ### Up to the check -/

theorem attempts_select_begun {f : PluginDb → Plugin α}
    (h : ∀ db, db₀.SameButProgress db →
      CountsFirst db₀ challengeId owner maxAttempts (f db) Q (.begun began)) :
    CountsFirst db₀ challengeId owner maxAttempts (select >>= f) Q (.begun began) :=
  follows_select (fun _ h => by cases h) fun db hexpected => h db hexpected.1

theorem attempts_settingOf {key : String} {default : Int} {f : Int → Plugin α}
    (h : ∀ value, CountsFirst db₀ challengeId owner maxAttempts (f value) Q (.begun began)) :
    CountsFirst db₀ challengeId owner maxAttempts (settingOf key default >>= f) Q (.begun began) :=
  attempts_select_begun fun _ _ => h _

/-- A query between the rate limit and the count. -/
theorem attempts_select_limited {f : PluginDb → Plugin α}
    (hqueries : queries < AttemptPhase.queriesBefore owner)
    (h : ∀ db, db₀.SameButProgress db →
      CountsFirst db₀ challengeId owner maxAttempts (f db) Q (.limited began (queries + 1))) :
    CountsFirst db₀ challengeId owner maxAttempts (select >>= f) Q (.limited began queries) := by
  apply follows_select (fun _ h => by cases h)
  intro db hexpected
  simp only [AttemptPhase.next, if_pos hqueries]
  exact h db hexpected.1

theorem two_le_queriesBefore : 2 ≤ AttemptPhase.queriesBefore owner := by
  unfold AttemptPhase.queriesBefore
  split <;> decide

theorem attempts_submitterOf {caller : Option Int} {f : Int → Plugin α}
    (h : ∀ user, db₀.currentUser caller = some user →
      CountsFirst db₀ challengeId owner maxAttempts (f user.id) Q (.limited began 2))
    (herror : ∀ err queries, Q (.error err) (.limited began queries)) :
    CountsFirst db₀ challengeId owner maxAttempts (UserRoutes.submitterOf caller >>= f) Q
      (.limited began 0) := by
  have hqueries : 2 ≤ AttemptPhase.queriesBefore owner := two_le_queriesBefore
  apply wp_bind.mpr
  apply wp_bind.mpr
  apply attempts_select_limited (Nat.lt_of_lt_of_le (by decide) hqueries)
  intro db hsame
  rw [hsame.accounts.currentUser]
  cases huser : db₀.currentUser caller with
  | none => exact herror _ _
  | some user =>
    apply attempts_select_limited (Nat.lt_of_lt_of_le (by decide) hqueries)
    intro db' hsame'
    rw [hsame'.accounts.getUser, getUser_of_currentUser huser]
    exact h user huser

theorem attempts_teamOf {caller : Option Int} {user : User} {f : Option Int → Plugin α}
    (huser : db₀.currentUser caller = some user) (howner : db₀.resolveOwner caller = some owner)
    (h : ∀ team, owner = solverOf user.id team → CountsFirst db₀ challengeId owner maxAttempts (f team) Q
      (.limited began (AttemptPhase.queriesBefore owner))) :
    CountsFirst db₀ challengeId owner maxAttempts (UserRoutes.teamOf owner >>= f) Q
      (.limited began 2) := by
  simp only [PluginDb.resolveOwner, huser, Option.bind_some] at howner
  unfold UserRoutes.teamOf
  cases hmode : db₀.teamsMode with
  | true =>
    simp only [hmode, if_true, Option.map_eq_some_iff, Option.filter_eq_some_iff] at howner
    obtain ⟨team, ⟨-, hexists⟩, rfl⟩ := howner
    rw [if_pos rfl]
    apply attempts_select_limited (show 2 < 3 by decide)
    intro db hsame
    have hfilter : ((some team).filter fun team => db.teams.contains team) = some team := by
      rw [hsame.accounts.teams]
      simpa [Option.filter] using hexists
    show CountsFirst db₀ challengeId _ maxAttempts
      (f ((some team).filter fun team => db.teams.contains team)) _ _
    rw [hfilter]
    exact h _ rfl
  | false =>
    simp only [hmode, Bool.false_eq_true, if_false, Option.some.injEq] at howner
    subst howner
    rw [if_neg (show ("user" : String) ≠ "team" by decide)]
    exact h none rfl

theorem attempts_attemptsExhausted {challenge : EdoChallenge} {f : Bool → Plugin α}
    (hchallenge : challenge.id = challengeId) (hmax : challenge.maxAttempts = some maxAttempts)
    (hpos : 0 < maxAttempts)
    (hrefused : CountsFirst db₀ challengeId owner maxAttempts (f true) Q (.refused began))
    (hallowed : ∀ checked,
      CountsFirst db₀ challengeId owner maxAttempts (f false) Q (.allowed began checked)) :
    CountsFirst db₀ challengeId owner maxAttempts (UserRoutes.attemptsExhausted challenge owner >>= f) Q
      (.limited began (AttemptPhase.queriesBefore owner)) := by
  have hlimit : UserRoutes.orDefault challenge.maxAttempts 0 = maxAttempts := by
    rw [hmax]
    unfold UserRoutes.orDefault
    exact if_neg hpos.ne'
  unfold UserRoutes.attemptsExhausted
  dsimp only
  rw [hlimit, if_neg hpos.ne', hchallenge]
  apply follows_select (fun _ h => by cases h)
  intro db _
  simp only [AttemptPhase.next, lt_irrefl, if_false]
  by_cases hfull : maxAttempts ≤ UserRoutes.failCount db challengeId owner
  · rw [if_pos hfull]
    show CountsFirst _ _ _ _ (f (decide _)) Q _
    rw [decide_eq_true hfull]
    exact hrefused
  · rw [if_neg hfull]
    show CountsFirst _ _ _ _ (f (decide _)) Q _
    rw [decide_eq_false hfull]
    exact hallowed _

/-- **A submission counts the fails before it is compared.** -/
theorem attempts_submitFlag {caller : Option Int} {provided : Option String} {challenge : EdoChallenge}
    (howner : db₀.resolveOwner caller = some owner)
    (hchallenge : db₀.getChallenge challengeId = some challenge)
    (hmax : challenge.maxAttempts = some maxAttempts) (hpos : 0 < maxAttempts) :
    CountsFirst db₀ challengeId owner maxAttempts
      (UserRoutes.submitFlag compare caller challengeId provided ip) (fun _ _ => True) .fresh := by
  have hid : challenge.id = challengeId := by simpa using List.find?_some hchallenge
  apply follows_select (fun _ h => by cases h)
  rintro db ⟨hsame, -⟩
  rw [hsame.accounts.currentUser, hsame.accounts.resolveOwner, howner]
  cases db₀.currentUser caller with
  | none => trivial
  | some user =>
    apply wp_bind.mpr
    apply attempts_select_begun
    intro db hsame
    rw [hsame.accounts.resolveOwner, howner]
    apply attempts_select_begun
    intro db hsame
    rw [hsame.getChallenge, hchallenge]
    apply attempts_settingOf
    intro limit
    apply attempts_settingOf
    intro window
    apply Conforms.perform trivial
    intro allowed _
    cases allowed with
    | error err => trivial
    | ok allowed =>
      apply Conforms.ite
      · apply attempts_submitterOf
        · intro user huser
          apply attempts_teamOf huser howner
          intro team hsolver
          rw [solverOf_ownerId hsolver]
          apply attempts_attemptsExhausted hid hmax hpos
          · trivial
          · intro checked
            apply Conforms.ite
            · trivial
            · apply Conforms.ite
              · trivial
              · exact attempts_judgeSubmission hsolver
        · exact fun _ _ => trivial
      · trivial

/-! ### Before the check -/

/-- Tables in which the owner has too many fails, and no finds. -/
structure TooMany (db₀ : PluginDb) (challengeId : Nat) (owner : Owner) (maxAttempts : Int) (began : Nat)
    (db : PluginDb) : Prop where
  same : db₀.SameButProgress db
  finds : db.flagSolves = []
  began : began ≤ UserRoutes.failCount db challengeId owner
  full : maxAttempts ≤ UserRoutes.failCount db challengeId owner

theorem exists_tooMany : ∃ db, TooMany db₀ challengeId owner maxAttempts began db := by
  let row : Submission := ⟨owner.ownerId, some owner.ownerId, challengeId, "", ""⟩
  have hbelongs : row.belongsTo owner = true := by simp [Submission.belongsTo, row]
  let db : PluginDb := { db₀ with
    fails := List.replicate (max began maxAttempts.toNat) row, flagSolves := [] }
  have hcount : UserRoutes.failCount db challengeId owner = max began maxAttempts.toNat := by
    unfold UserRoutes.failCount
    rw [List.filter_eq_self.mpr, List.length_replicate]
    intro fail hfail
    rw [(List.mem_replicate.mp hfail).2]
    exact decide_eq_true ⟨rfl, hbelongs⟩
  refine ⟨db, rfl, rfl, ?_, ?_⟩
  · rw [hcount]
    exact le_max_left _ _
  · rw [hcount]
    omega

/-- A query that shows too many fails leads nowhere near the flags. -/
theorem next_of_tooMany {phase : AttemptPhase} {db : PluginDb}
    (hdb : TooMany db₀ challengeId owner maxAttempts phase.began db) (hphase : ¬ phase.Allowed) :
    ¬ (phase.next challengeId owner maxAttempts .select db).Allowed ∧
      TooMany db₀ challengeId owner maxAttempts
        (phase.next challengeId owner maxAttempts .select db).began db := by
  cases phase with
  | fresh =>
    refine ⟨?_, hdb.same, hdb.finds, le_refl _, hdb.full⟩
    rintro ⟨_, _, h⟩
    cases h
  | begun => exact ⟨hphase, hdb⟩
  | limited began queries =>
    simp only [AttemptPhase.next, if_pos hdb.full]
    split
    all_goals
      refine ⟨?_, hdb⟩
      rintro ⟨_, _, h⟩
      cases h
  | allowed began checked => exact absurd ⟨began, checked, rfl⟩ hphase
  | refused => exact ⟨hphase, hdb⟩

theorem CountsFirst.of_select {phase : AttemptPhase} {f : PluginDb → Plugin α} {db : PluginDb}
    (h : CountsFirst db₀ challengeId owner maxAttempts (select >>= f) Q phase)
    (hdb : TooMany db₀ challengeId owner maxAttempts phase.began db) :
    CountsFirst db₀ challengeId owner maxAttempts (f db) Q
      (phase.next challengeId owner maxAttempts .select db) :=
  h.2 db _ ⟨⟨hdb.same, hdb.began⟩, rfl⟩

theorem CountsFirst.of_firstMatchingFlag {phase : AttemptPhase} {f : Option Flag → Plugin α}
    {db : PluginDb} (h : CountsFirst db₀ challengeId owner maxAttempts
      (firstMatchingFlag compare challengeId submission >>= f) Q phase)
    (hdb : TooMany db₀ challengeId owner maxAttempts phase.began db) :
    CountsFirst db₀ challengeId owner maxAttempts
      (f ((db.flagsOf challengeId).find? fun flag => compare flag submission)) Q
      (phase.next challengeId owner maxAttempts .select db) :=
  h.2 db _ ⟨⟨hdb.same, hdb.began⟩, rfl⟩

/-- **The flags are read after the check only**: what compares a submission goes on to write, and
    before the check there is nothing to write. -/
theorem allowed_of_attempts {phase : AttemptPhase} {Q : Except PluginErr Response → AttemptPhase → Prop}
    (h : CountsFirst db₀ challengeId owner maxAttempts
      (UserRoutes.judgeSubmission compare challengeId owner userId team submission ip) Q phase) :
    phase.Allowed := by
  by_contra hphase
  obtain ⟨db, hdb⟩ : ∃ db, TooMany db₀ challengeId owner maxAttempts phase.began db := exists_tooMany
  have hnone : ∀ owner flagId, db.flagSolve owner flagId = none := by
    intro owner flagId
    unfold PluginDb.flagSolve
    rw [hdb.finds]
    rfl
  obtain ⟨hphase₁, hdb₁⟩ := next_of_tooMany hdb hphase
  obtain ⟨hphase₂, hdb₂⟩ := next_of_tooMany hdb₁ hphase₁
  obtain ⟨hphase₃, hdb₃⟩ := next_of_tooMany hdb₂ hphase₂
  obtain ⟨hphase₄, hdb₄⟩ := next_of_tooMany hdb₃ hphase₃
  have hread := CountsFirst.of_firstMatchingFlag h hdb
  cases hfind : (db.flagsOf challengeId).find? fun flag => compare flag submission with
  | none =>
    rw [hfind] at hread
    exact hphase₁ hread.1.1
  | some flag =>
    rw [hfind] at hread
    have hcredit := CountsFirst.of_select hread hdb₁
    rw [hnone] at hcredit
    have hagain := CountsFirst.of_firstMatchingFlag (wp_bind.mp hcredit) hdb₂
    rw [hfind] at hagain
    have hrecord := CountsFirst.of_select hagain hdb₃
    rw [hnone] at hrecord
    exact hphase₄ hrecord.1.1

end Conformance

/-! ## The invariant -/

/-- The fails never become fewer, so what a request counted is there, and was below the limit if the
    request went on. -/
structure CountedFails (db₀ : PluginDb) (challengeId : Nat) (owner : Owner) (maxAttempts : Int)
    (s : Site) (phases : List AttemptPhase) : Prop where
  same : db₀.SameButProgress s.plugin
  began : ∀ (i : Nat) (φ : AttemptPhase), phases[i]? = some φ →
    φ.began ≤ UserRoutes.failCount s.plugin challengeId owner
  checked : ∀ (i : Nat) (began checked : Nat), phases[i]? = some (.allowed began checked) →
    began ≤ checked ∧ (checked : Int) < maxAttempts

/-- A wrong submission's row is committed while the fails are still those that its request counted. -/
def FailsAsCounted (challengeId : Nat) (owner : Owner) (s : Site) (phases : List AttemptPhase)
    (event : Event siteEffect) : Prop :=
  match event.op with
  | .commit [.insertFail _] => ∀ began checked, phases[event.tid]? = some (.allowed began checked) →
      UserRoutes.failCount s.plugin challengeId owner = checked
  | _ => True

section Steps

variable {db₀ db : PluginDb} {challengeId : Nat} {owner : Owner} {maxAttempts : Int} {s s' : Site}
  {phases : List AttemptPhase} {phase phase' : AttemptPhase} {tid : Nat} {rpc : RpcSem}

namespace CountedFails

theorem set_phase (h : CountedFails db₀ challengeId owner maxAttempts s phases)
    (hget : phases[tid]? = some phase) (hsame : db₀.SameButProgress s'.plugin)
    (hgrow : UserRoutes.failCount s.plugin challengeId owner ≤
      UserRoutes.failCount s'.plugin challengeId owner)
    (hbegan : phase'.began ≤ UserRoutes.failCount s'.plugin challengeId owner)
    (hchecked : ∀ began checked, phase' = .allowed began checked →
      began ≤ checked ∧ (checked : Int) < maxAttempts) :
    CountedFails db₀ challengeId owner maxAttempts s' (phases.set tid phase') := by
  constructor
  case same => exact hsame
  case began =>
    intro i φ hφ
    rcases (getElem?_set_iff hget).mp hφ with ⟨-, rfl⟩ | ⟨-, hold⟩
    · exact hbegan
    · exact (h.began i φ hold).trans hgrow
  case checked =>
    intro i began checked hφ
    rcases (getElem?_set_iff hget).mp hφ with ⟨-, hphase⟩ | ⟨-, hold⟩
    · exact hchecked began checked hphase.symm
    · exact h.checked i began checked hold

theorem same_phase (h : CountedFails db₀ challengeId owner maxAttempts s phases)
    (hget : phases[tid]? = some phase) (hsame : db₀.SameButProgress s'.plugin)
    (hgrow : UserRoutes.failCount s.plugin challengeId owner ≤
      UserRoutes.failCount s'.plugin challengeId owner) :
    CountedFails db₀ challengeId owner maxAttempts s' (phases.set tid phase) := by
  apply h.set_phase hget hsame hgrow
  · exact (h.began tid phase hget).trans hgrow
  · rintro began checked rfl
    exact h.checked tid began checked hget

theorem select (h : CountedFails db₀ challengeId owner maxAttempts s phases)
    (hget : phases[tid]? = some phase) :
    CountedFails db₀ challengeId owner maxAttempts s
      (phases.set tid (phase.next challengeId owner maxAttempts .select s.plugin)) := by
  have hbegan := h.began tid phase hget
  cases phase with
  | fresh =>
    apply h.set_phase hget h.same (le_refl _) (le_refl _)
    intro began checked hphase
    cases hphase
  | limited began queries =>
    simp only [AttemptPhase.next]
    split
    · refine h.set_phase hget h.same (le_refl _) hbegan ?_
      intro _ _ hphase
      cases hphase
    · by_cases hfull : maxAttempts ≤ UserRoutes.failCount s.plugin challengeId owner
      · rw [if_pos hfull]
        refine h.set_phase hget h.same (le_refl _) hbegan ?_
        intro _ _ hphase
        cases hphase
      · rw [if_neg hfull]
        refine h.set_phase hget h.same (le_refl _) hbegan ?_
        rintro _ _ ⟨⟩
        exact ⟨hbegan, not_le.mp hfull⟩
  | begun | allowed | refused => exact h.same_phase hget h.same (le_refl _)

end CountedFails

theorem singleton_of_judges {writes : List Write} (h : judges challengeId owner (.commit writes)) :
    ∃ write, writes = [write] := by
  unfold judges at h
  split at h
  case h_1 heq => cases heq
  case h_2 row heq | h_3 row heq | h_4 row heq =>
    cases heq
    exact ⟨_, rfl⟩
  case h_5 => exact h.elim

/-- A commit of a submission adds one row to the fails, or none. -/
theorem failCount_commit (db : PluginDb) {writes : List Write} (hjudges : judges challengeId owner (.commit writes)) :
    UserRoutes.failCount (db.commit writes).2 challengeId owner =
        UserRoutes.failCount db challengeId owner ∨
      (∃ row, writes = [.insertFail row]) ∧
        UserRoutes.failCount (db.commit writes).2 challengeId owner =
          UserRoutes.failCount db challengeId owner + 1 := by
  obtain ⟨write, rfl⟩ := singleton_of_judges hjudges
  unfold PluginDb.commit
  rw [PluginDb.applyAll_singleton]
  cases happly : db.apply write with
  | error err => exact Or.inl rfl
  | ok db' =>
    cases write with
    | insertFail row =>
      cases happly
      obtain ⟨hchallenge, hbelongs⟩ := hjudges
      refine Or.inr ⟨⟨row, rfl⟩, ?_⟩
      simp [UserRoutes.failCount, List.filter_append, hchallenge, hbelongs]
    | insertFlagSolve row =>
      rw [PluginDb.insertFlagSolve_ok happly]
      exact Or.inl rfl
    | insertSolve row =>
      rw [insertSolve_ok happly]
      exact Or.inl rfl
    | _ => exact hjudges.elim

theorem sameButProgress_commit {writes : List Write} (h : db₀.SameButProgress db)
    (hjudges : judges challengeId owner (.commit writes)) :
    db₀.SameButProgress (db.commit writes).2 := by
  obtain ⟨write, rfl⟩ := singleton_of_judges hjudges
  unfold PluginDb.commit
  rw [PluginDb.applyAll_singleton]
  cases happly : db.apply write with
  | error err => exact h
  | ok db' => exact h.apply hjudges happly

/-- **One call of a request.** -/
theorem CountedFails.step {op : SiteOp} {res : op.Res}
    (h : CountedFails db₀ challengeId owner maxAttempts s phases) (hget : phases[tid]? = some phase)
    (hadmits : phase.admits challengeId owner op) (hsem : siteSem rpc s op res s') :
    phase.expected db₀ challengeId owner op res ∧ CountedFails db₀ challengeId owner maxAttempts s'
      (phases.set tid (phase.next challengeId owner maxAttempts op res)) := by
  cases op with
  | select =>
    obtain ⟨rfl, rfl⟩ := hsem
    exact ⟨⟨h.same, h.began tid phase hget⟩, h.select hget⟩
  | rateLimit key limit window =>
    obtain ⟨now, -, rfl⟩ := hsem
    refine ⟨trivial, ?_⟩
    have hbegan := h.began tid phase hget
    cases phase with
    | begun began =>
      refine h.set_phase hget h.same (le_refl _) hbegan ?_
      intro _ _ hphase
      cases hphase
    | fresh | limited | allowed | refused => exact h.same_phase hget h.same (le_refl _)
  | commit writes =>
    obtain ⟨-, rfl⟩ := hsem
    refine ⟨trivial, h.same_phase hget (sameButProgress_commit h.same hadmits.2) ?_⟩
    rcases failCount_commit s.plugin hadmits.2 with hsame | ⟨-, hmore⟩
    · exact hsame.ge
    · exact (Nat.le_succ _).trans hmore.ge
  | flush _ | insertInstance _ _ _ | rpc _ | utcnow => exact hadmits.2.elim

/-- **The limit holds after each call**, if wrong submissions are committed as they were counted. -/
theorem CountedFails.step_le {op : SiteOp} {res : op.Res} {bound : Int}
    (h : CountedFails db₀ challengeId owner maxAttempts s phases) (hget : phases[tid]? = some phase)
    (hadmits : phase.admits challengeId owner op) (hsem : siteSem rpc s op res s')
    (hcounted : FailsAsCounted challengeId owner s phases ⟨tid, op, res⟩) (hbound : maxAttempts ≤ bound)
    (hle : UserRoutes.failCount s.plugin challengeId owner ≤ bound) :
    UserRoutes.failCount s'.plugin challengeId owner ≤ bound := by
  cases op with
  | select =>
    obtain ⟨-, rfl⟩ := hsem
    exact hle
  | rateLimit key limit window =>
    obtain ⟨now, -, rfl⟩ := hsem
    exact hle
  | commit writes =>
    obtain ⟨-, rfl⟩ := hsem
    show ((UserRoutes.failCount (s.plugin.commit writes).2 challengeId owner : Nat) : Int) ≤ bound
    rcases failCount_commit s.plugin hadmits.2 with hsame | ⟨⟨row, rfl⟩, hmore⟩
    · rw [hsame]
      exact hle
    · obtain ⟨⟨began, checked, rfl⟩, -⟩ := hadmits
      have hsame := hcounted began checked hget
      have hlt := (h.checked tid began checked hget).2
      rw [hmore, hsame]
      push_cast
      omega
  | flush _ | insertInstance _ _ _ | rpc _ | utcnow => exact hadmits.2.elim

end Steps

/-! ## Runs -/

/-- The request is about to read the flags and compare its submission with them. -/
def Compares (compare : FlagComparison) (challengeId : Nat) (owner : Owner) (p : Plugin Unit) : Prop :=
  ∃ userId team submission ip,
    p = unattended (UserRoutes.judgeSubmission compare challengeId owner userId team submission ip)

def startAttempts (compare : FlagComparison) (challengeId : Nat) (requests : List SubmitRequest)
    (s : Site) : SiteConfig AttemptPhase :=
  startThreads .fresh (requests.map (SubmitRequest.prog compare challengeId)) s

/-- **The limit on attempts.**  A request that begins with the limit reached is compared with no flag;
    and the fails stay within the limit, or what they were, as long as each wrong submission is
    committed while the fails are those its request counted. -/
theorem attempts_limited (compare : FlagComparison) (rpc : RpcSem) (challengeId : Nat) (owner : Owner)
    (challenge : EdoChallenge) (maxAttempts : Int) (requests : List SubmitRequest) (s : Site)
    (c : SiteConfig AttemptPhase) (hchallenge : s.plugin.getChallenge challengeId = some challenge)
    (hmax : challenge.maxAttempts = some maxAttempts) (hpos : 0 < maxAttempts)
    (hmembers : ∀ request ∈ requests, s.plugin.resolveOwner request.caller = some owner)
    (hreach : Reach (siteSem rpc) (AttemptPhase.next challengeId owner maxAttempts) (fun _ _ _ => True)
      (startAttempts compare challengeId requests s) c) :
    (∀ thread ∈ c.threads, maxAttempts ≤ thread.phase.began →
        ¬ Compares compare challengeId owner thread.prog) ∧
      (Reach (siteSem rpc) (AttemptPhase.next challengeId owner maxAttempts)
          (FailsAsCounted challengeId owner) (startAttempts compare challengeId requests s) c →
        UserRoutes.failCount c.world.plugin challengeId owner ≤
          max maxAttempts (UserRoutes.failCount s.plugin challengeId owner)) := by
  have hinit : CountedFails s.plugin challengeId owner maxAttempts s
      (startAttempts compare challengeId requests s).phases := by
    constructor
    case same => exact .refl
    case began =>
      intro i φ hφ
      rw [phases_startThreads hφ]
      exact Nat.zero_le _
    case checked =>
      intro i began checked hφ
      cases phases_startThreads hφ
  have hconf : ∀ thread ∈ (startAttempts compare challengeId requests s).threads,
      CountsFirst s.plugin challengeId owner maxAttempts thread.prog (fun _ _ => True) thread.phase := by
    intro thread hthread
    obtain ⟨p, hp, rfl⟩ := List.mem_map.mp hthread
    obtain ⟨request, hrequest, rfl⟩ := List.mem_map.mp hp
    apply follows_unattended (P := fun _ => True)
    exact attempts_submitFlag (hmembers request hrequest) hchallenge hmax hpos
  constructor
  · have hkeeps : ∀ world phases tid phase op res world',
        CountedFails s.plugin challengeId owner maxAttempts world phases →
        phases[tid]? = some phase → AttemptPhase.admits challengeId owner phase op →
        siteSem rpc world op res world' → True →
        AttemptPhase.expected s.plugin challengeId owner phase op res ∧
          CountedFails s.plugin challengeId owner maxAttempts world'
            (phases.set tid (AttemptPhase.next challengeId owner maxAttempts phase op res)) :=
      fun _ _ _ _ _ _ _ h hget hadmits hsem _ => h.step hget hadmits hsem
    obtain ⟨hcounted, hthreads⟩ := reach_invariant hkeeps hconf hinit hreach
    intro thread hthread hlate
    rintro ⟨userId, team, submission, ip, hprog⟩
    have hjudging := hthreads thread hthread
    rw [hprog] at hjudging
    -- A request that compares is past the check, and counted fewer fails than the limit.
    obtain ⟨began, checked, hphase⟩ := allowed_of_attempts (wp_bind.mp (wp_catching.mp hjudging))
    have hmem : thread.phase ∈ c.phases := List.mem_map_of_mem hthread
    obtain ⟨i, hi⟩ := List.mem_iff_getElem?.mp hmem
    rw [hphase] at hi hlate
    obtain ⟨hle, hlt⟩ := hcounted.checked i began checked hi
    have hbegan : maxAttempts ≤ (began : Int) := hlate
    omega
  · intro hfresh
    let limit : Int := max maxAttempts (UserRoutes.failCount s.plugin challengeId owner)
    have hkeeps : ∀ world phases tid phase op res world',
        (CountedFails s.plugin challengeId owner maxAttempts world phases ∧
          UserRoutes.failCount world.plugin challengeId owner ≤ limit) →
        phases[tid]? = some phase → AttemptPhase.admits challengeId owner phase op →
        siteSem rpc world op res world' →
        FailsAsCounted challengeId owner world phases ⟨tid, op, res⟩ →
        AttemptPhase.expected s.plugin challengeId owner phase op res ∧
          CountedFails s.plugin challengeId owner maxAttempts world'
            (phases.set tid (AttemptPhase.next challengeId owner maxAttempts phase op res)) ∧
          UserRoutes.failCount world'.plugin challengeId owner ≤ limit := by
      rintro world phases tid phase op res world' ⟨h, hle⟩ hget hadmits hsem hcounted
      obtain ⟨hexpected, hnext⟩ := h.step hget hadmits hsem
      exact ⟨hexpected, hnext, h.step_le hget hadmits hsem hcounted (le_max_left _ _) hle⟩
    have hstart : CountedFails s.plugin challengeId owner maxAttempts s
        (startAttempts compare challengeId requests s).phases ∧
          UserRoutes.failCount s.plugin challengeId owner ≤ limit := ⟨hinit, le_max_right _ _⟩
    exact (reach_invariant hkeeps hconf hstart hfresh).1.2

/-! ## Two wrong submissions -/

/-- Two members of a team, and a challenge that allows one attempt. -/
def oneAttemptSite : Site := { teamSite with plugin := { teamSite.plugin with
  challenges := teamSite.plugin.challenges.map fun challenge =>
    { challenge with maxAttempts := some 1 } } }

def wrongGuesses : List SubmitRequest := [⟨some 1, some "three", ""⟩, ⟨some 2, some "four", ""⟩]

def guessBoth (check : Site → List AttemptPhase → Event siteEffect → Bool) (blocks : List (Nat × Nat)) :
    Option (SiteConfig AttemptPhase) :=
  (siteMachine (execServed DaemonEnv.default)).runChecked (AttemptPhase.next 1 ⟨"team", 1⟩ 1) check
    (blocksOf (quietSiteChoice 0) blocks) (startAttempts sameContent 1 wrongGuesses oneAttemptSite)

theorem reach_guessBoth {check : Site → List AttemptPhase → Event siteEffect → Bool}
    {blocks : List (Nat × Nat)} {c : SiteConfig AttemptPhase} (h : guessBoth check blocks = some c) :
    Reach (siteSem (Served DaemonEnv.default)) (AttemptPhase.next 1 ⟨"team", 1⟩ 1)
      (fun s phases event => check s phases event = true)
      (startAttempts sameContent 1 wrongGuesses oneAttemptSite) c :=
  reach_of_siteSchedule (executes_served _) h

def failsAsCounted (s : Site) (phases : List AttemptPhase) (event : Event siteEffect) : Bool :=
  match event.op with
  | .commit [.insertFail _] =>
    match phases[event.tid]? with
    | some (.allowed _ checked) => UserRoutes.failCount s.plugin 1 ⟨"team", 1⟩ = checked
    | _ => true
  | _ => true

theorem failsAsCounted_of_check {s : Site} {phases : List AttemptPhase} {event : Event siteEffect}
    (h : failsAsCounted s phases event = true) : FailsAsCounted 1 ⟨"team", 1⟩ s phases event := by
  unfold failsAsCounted at h
  unfold FailsAsCounted
  split at h
  case h_1 =>
    intro began checked hget
    rw [hget] at h
    exact of_decide_eq_true h
  case h_2 => trivial

/-- One submission after the other: the second is refused. -/
theorem guessInTurn_refuses : (guessBoth failsAsCounted [(0, 12), (1, 10)]).any (fun c =>
    decide (UserRoutes.failCount c.world.plugin 1 ⟨"team", 1⟩ = 1 ∧
      c.phases = [.allowed 0 0, .refused 1])) = true := by
  decide +kernel

theorem attempts_limited_inTurn : ∃ c, guessBoth failsAsCounted [(0, 12), (1, 10)] = some c ∧
    c.phases = [.allowed 0 0, .refused 1] ∧
    (∀ thread ∈ c.threads, (1 : Int) ≤ thread.phase.began →
      ¬ Compares sameContent 1 ⟨"team", 1⟩ thread.prog) ∧
    (UserRoutes.failCount c.world.plugin 1 ⟨"team", 1⟩ : Int) ≤ 1 := by
  obtain ⟨c, hrun, hdone⟩ := (Option.any_eq_true _ _).mp guessInTurn_refuses
  have hreach := reach_guessBoth hrun
  obtain ⟨hlate, hlimit⟩ := attempts_limited sameContent (Served DaemonEnv.default) 1 ⟨"team", 1⟩
    ⟨1, "web", some 1, some "/challenges/web-1", none, none, none, false, none, "vpn", some 100,
      "static", some 500, some 100, some 25⟩ 1 wrongGuesses oneAttemptSite c rfl rfl (by decide)
    (by decide) (hreach.mono fun _ _ _ _ => trivial)
  refine ⟨c, hrun, (of_decide_eq_true hdone).2, hlate, ?_⟩
  exact hlimit (hreach.mono fun _ _ _ => failsAsCounted_of_check)

/-- Both requests count before either commits. -/
theorem guessTogether_fails : (guessBoth (fun _ _ _ => true)
    [(0, 11), (1, 11), (0, 1), (1, 1)]).any (fun c =>
      decide (UserRoutes.failCount c.world.plugin 1 ⟨"team", 1⟩ = 2)) = true := by
  decide +kernel

/-- Two fails where one is allowed. -/
theorem not_attempts_limited : ¬ ∀ (compare : FlagComparison) (rpc : RpcSem) (challengeId : Nat)
    (owner : Owner) (challenge : EdoChallenge) (maxAttempts : Int) (requests : List SubmitRequest)
    (s : Site) (c : SiteConfig AttemptPhase), s.plugin.fails = [] →
    s.plugin.getChallenge challengeId = some challenge → challenge.maxAttempts = some maxAttempts →
    0 < maxAttempts → (∀ request ∈ requests, s.plugin.resolveOwner request.caller = some owner) →
    Reach (siteSem rpc) (AttemptPhase.next challengeId owner maxAttempts) (fun _ _ _ => True)
      (startAttempts compare challengeId requests s) c →
    UserRoutes.failCount c.world.plugin challengeId owner ≤ maxAttempts := by
  intro hall
  obtain ⟨c, hrun, hfails⟩ := (Option.any_eq_true _ _).mp guessTogether_fails
  have hle := hall sameContent (Served DaemonEnv.default) 1 ⟨"team", 1⟩
    ⟨1, "web", some 1, some "/challenges/web-1", none, none, none, false, none, "vpn", some 100,
      "static", some 500, some 100, some 25⟩ 1 wrongGuesses oneAttemptSite c rfl rfl rfl (by decide)
    (by decide) ((reach_guessBoth hrun).mono fun _ _ _ _ => trivial)
  rw [of_decide_eq_true hfails] at hle
  exact absurd hle (by decide)

end EdoPlugin
