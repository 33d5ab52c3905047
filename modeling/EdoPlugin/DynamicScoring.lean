import EdoPlugin.NativeDispatch

/-!
# Dynamic values

`read` shows a challenge's decayed value, computed from the number of its solves.  The scoreboard
sums the stored `Challenges.value`, which nobody brings up to date: it is right as long as solves
come only when they do not change the decayed value, and updates save the value of their parameters.

The division and the rounding of `_dynamic_value` are floating-point arithmetic, and a parameter.
-/

namespace EdoPlugin

open Interaction ChallengeType UserRoutes

/-! ## The value of a challenge -/

/-- `int(round(initial - (initial - minimum) * (solve_count / decay)))`. -/
abbrev FloatDecay : Type := Int → Int → Nat → Int → Int

section Value

variable (decayed : FloatDecay)

/-- `_dynamic_value`, for so many solves. -/
def dynamicValue (challenge : EdoChallenge) (solveCount : Nat) : Int :=
  let initial := orDefault challenge.initialValue (orDefault challenge.value 0)
  let minimum := orDefault challenge.minimumValue 0
  let decay := max 1 (orDefault challenge.decay 1)
  if decay ≤ solveCount then minimum else decayed initial minimum solveCount decay

/-- `Solves.query.filter_by(challenge_id=challenge.id).count()` -/
def PluginDb.solveCount (db : PluginDb) (challengeId : Nat) : Nat :=
  (db.solves.filter fun solve => solve.challengeId = challengeId).length

/-- `_current_value` -/
def currentValue (db : PluginDb) (challenge : EdoChallenge) : Int :=
  if challenge.scoringMode = "static" then orDefault challenge.value 0
  else dynamicValue decayed challenge (db.solveCount challenge.id)

end Value

/-! ## Updates -/

/-- A value of a form or of a JSON body. -/
inductive FieldValue where
  | null
  | text (value : String)
  | number (value : Int)
deriving DecidableEq, Repr

/-- `_coerce_field` of an integer field. -/
def FieldValue.coerce : FieldValue → Option Int
  | .null => none
  | .text value => if value = "" then none else pyInt value
  | .number value => some value

/-- The scoring fields among those `update` may set. -/
inductive ScoringField where
  | value (given : FieldValue)
  | scoringMode (given : String)
  | initialValue (given : FieldValue)
  | minimumValue (given : FieldValue)
  | decay (given : FieldValue)
deriving DecidableEq, Repr

/-- `setattr(challenge, key, _coerce_field(key, val))` -/
def ScoringField.set (challenge : EdoChallenge) : ScoringField → EdoChallenge
  | .value given => { challenge with value := given.coerce }
  | .scoringMode given => { challenge with scoringMode := given }
  | .initialValue given => { challenge with initialValue := given.coerce }
  | .minimumValue given => { challenge with minimumValue := given.coerce }
  | .decay given => { challenge with decay := given.coerce }

def EdoChallenge.setAll (challenge : EdoChallenge) (data : List ScoringField) : EdoChallenge :=
  data.foldl ScoringField.set challenge

/-- `EdoChallengeType.update` -/
def PluginDb.updateChallenge (db : PluginDb) (challengeId : Nat) (data : List ScoringField) :
    PluginDb :=
  { db with challenges := db.challenges.map fun challenge =>
      if challenge.id = challengeId then challenge.setAll data else challenge }

@[simp] theorem id_set (challenge : EdoChallenge) (field : ScoringField) :
    (field.set challenge).id = challenge.id := by
  cases field <;> rfl

@[simp] theorem id_setAll (challenge : EdoChallenge) (data : List ScoringField) :
    (challenge.setAll data).id = challenge.id := by
  unfold EdoChallenge.setAll
  induction data generalizing challenge with
  | nil => rfl
  | cons field data ih => simp [ih]

theorem getChallenge_updateChallenge (db : PluginDb) (challengeId other : Nat)
    (data : List ScoringField) : (db.updateChallenge challengeId data).getChallenge other =
      (db.getChallenge other).map fun challenge =>
        if challenge.id = challengeId then challenge.setAll data else challenge := by
  unfold PluginDb.getChallenge PluginDb.updateChallenge
  rw [List.find?_map]
  congr 2
  funext challenge
  by_cases hid : challenge.id = challengeId
  · simp [hid]
  · simp [hid]

theorem id_of_getChallenge {db : PluginDb} {challengeId : Nat} {challenge : EdoChallenge}
    (h : db.getChallenge challengeId = some challenge) : challenge.id = challengeId := by
  simpa using List.find?_some h

/-! ## Runs -/

inductive ScoringEvent where
  | submitFlag (caller : Option Int) (challengeId : Nat) (provided : Option String) (ip : String)
  /-- CTFd's own endpoint, for the account of this user and team. -/
  | attempt (caller : Option Int) (userId : Int) (team : Option Int) (challengeId : Nat)
      (provided : Option String) (ip : String)
  | update (challengeId : Nat) (data : List ScoringField)
deriving DecidableEq, Repr

inductive ScoringStep (rpc : RpcSem) (compare : FlagComparison) (s : Site) :
    ScoringEvent → Site → Prop
  | submitFlag {caller challengeId provided ip out s'} :
      Ends (siteSem rpc) (UserRoutes.submitFlag compare caller challengeId provided ip) s out s' →
      ScoringStep rpc compare s (.submitFlag caller challengeId provided ip) s'
  | attempt {caller userId team challengeId provided ip out s'} :
      s.plugin.resolveOwner caller = some (solverOf userId team) →
      Ends (siteSem rpc) (dispatchAttempt compare caller userId team challengeId provided ip)
        s out s' →
      ScoringStep rpc compare s (.attempt caller userId team challengeId provided ip) s'
  | update {challengeId data} : ScoringStep rpc compare s (.update challengeId data)
      { s with plugin := s.plugin.updateChallenge challengeId data }

/-- The sites that runs from `s₀` lead to when every step satisfies `ok`, which sees the site before
    the step. -/
inductive ScoringRun (rpc : RpcSem) (compare : FlagComparison) (ok : Site → ScoringEvent → Prop)
    (s₀ : Site) : Site → Prop
  | start : ScoringRun rpc compare ok s₀ s₀
  | step {s s' : Site} {event : ScoringEvent} : ScoringRun rpc compare ok s₀ s → ok s event →
      ScoringStep rpc compare s event s' → ScoringRun rpc compare ok s₀ s'

/-! ## When the stored value stays right -/

/-- The scoreboard's value of a challenge that is not static is the one `read` shows. -/
def OnScoreboard (decayed : FloatDecay) (challengeId : Nat) (s : Site) : Prop :=
  ∀ challenge, s.plugin.getChallenge challengeId = some challenge →
    challenge.scoringMode ≠ "static" →
    orDefault challenge.value 0 = currentValue decayed s.plugin challenge

/-- The submission passes the checks of its path, and earns its owner the solve. -/
def ScoringEvent.Solves (compare : FlagComparison) (challengeId : Nat) (s : Site) :
    ScoringEvent → Prop
  | .submitFlag caller challengeId' provided _ => challengeId' = challengeId ∧
      ∃ owner flag, s.plugin.resolveOwner caller = some owner ∧
        s.plugin.solveOf challengeId owner = none ∧
        Completes compare s.plugin challengeId owner (submissionOf provided) flag
  | .attempt _ userId team challengeId' provided ip => challengeId' = challengeId ∧
      s.plugin.getChallenge challengeId ≠ none ∧
      s.plugin.solveOf challengeId (solverOf userId team) = none ∧
      ∃ flag, AttemptSucceeds compare s.plugin (solverOf userId team)
        ⟨userId, team, challengeId, ip, submissionOf provided⟩ flag
  | .update .. => False

/-- A submission that solves the challenge comes when one more solve does not change the decayed
    value, and an update leaves the value of its parameters. -/
def KeepsValue (decayed : FloatDecay) (compare : FlagComparison) (challengeId : Nat) (s : Site)
    (event : ScoringEvent) : Prop :=
  ∀ challenge, s.plugin.getChallenge challengeId = some challenge →
    let solveCount := s.plugin.solveCount challengeId
    (challenge.scoringMode ≠ "static" → event.Solves compare challengeId s →
      dynamicValue decayed challenge (solveCount + 1) = dynamicValue decayed challenge solveCount) ∧
    ∀ data, event = .update challengeId data → (challenge.setAll data).scoringMode ≠ "static" →
      orDefault (challenge.setAll data).value 0 =
        dynamicValue decayed (challenge.setAll data) solveCount

section Steps

variable {rpc : RpcSem} {compare : FlagComparison} {decayed : FloatDecay} {challengeId : Nat}
  {s s' : Site} {event : ScoringEvent}

/-- What a submission may do to what values are computed from. -/
inductive CountsSolve (challengeId : Nat) (solves : Prop) (db db' : PluginDb) : Prop
  | same : db'.challenges = db.challenges → db'.solves = db.solves →
      CountsSolve challengeId solves db db'
  | counted {row} : solves → row.challengeId = challengeId → db'.challenges = db.challenges →
      db'.solves = db.solves ++ [row] → CountsSolve challengeId solves db db'

theorem wp_submitFlag_countsSolve {caller : Option Int} {provided : Option String} {ip : String} :
    wp (siteSem rpc) (fun _ _ => True)
      (UserRoutes.submitFlag compare caller challengeId provided ip)
      (fun _ s' => CountsSolve challengeId
        ((ScoringEvent.submitFlag caller challengeId provided ip).Solves compare challengeId s)
        s.plugin s'.plugin) s := by
  cases howner : s.plugin.resolveOwner caller with
  | none =>
    refine wp_ownerRequired (fun refusal => .same rfl rfl) fun owner h => ?_
    rw [howner] at h
    cases h
  | some owner =>
    apply wp_submitFlag_judged howner
    · exact fun _ => .same rfl rfl
    · exact fun msg buckets => .same rfl rfl
    · exact fun retryAfter buckets => .same rfl rfl
    · exact fun buckets => .same rfl rfl
    · exact fun buckets _ => .same rfl rfl
    · intro challenge user team buckets hchallenge _ hsolver hnonempty
      refine wp_mono (wp_judgeSubmission hsolver) ?_
      intro out s' hjudged
      generalize s'.plugin = db' at hjudged
      cases hjudged with
      | scored hmatch hnew hcomplete hnone =>
        refine .counted ⟨rfl, owner, _, howner, hnone, ?_, hnonempty, hmatch, hnew, hcomplete⟩ rfl rfl
          rfl
        rw [hchallenge]
        exact Option.some_ne_none challenge
      | incorrect | alreadyFound | found | completed | conflict => exact .same rfl rfl

theorem wp_dispatchAttempt_countsSolve {caller : Option Int} {userId : Int} {team : Option Int}
    {provided : Option String} {ip : String}
    (haccount : s.plugin.resolveOwner caller = some (solverOf userId team)) :
    wp (siteSem rpc) (fun _ _ => True)
      (dispatchAttempt compare caller userId team challengeId provided ip)
      (fun _ s' => CountsSolve challengeId
        ((ScoringEvent.attempt caller userId team challengeId provided ip).Solves compare challengeId s)
        s.plugin s'.plugin) s := by
  refine wp_mono (wp_dispatchAttempt haccount rfl) ?_
  intro out s' hdispatched
  generalize s'.plugin = db' at hdispatched
  cases hdispatched with
  | unsolved _ hchallenges _ hsolves => exact .same hchallenges hsolves
  | solved hchallenge hnone hsucceeds =>
    exact .counted ⟨rfl, hchallenge, hnone, _, hsucceeds⟩ rfl rfl rfl
  | conflict => exact .same rfl rfl

/-- A solve counts for its challenge only. -/
theorem solveCount_append {db db' : PluginDb} {row : Submission} (other : Nat)
    (h : db'.solves = db.solves ++ [row]) : db'.solveCount other =
      if row.challengeId = other then db.solveCount other + 1 else db.solveCount other := by
  by_cases hsame : row.challengeId = other
  · simp [PluginDb.solveCount, h, hsame]
  · simp [PluginDb.solveCount, h, hsame]

theorem OnScoreboard.of_countsSolve {other : Nat} {solves : Prop}
    (h : OnScoreboard decayed challengeId s)
    (hkeeps : ∀ challenge, s.plugin.getChallenge challengeId = some challenge →
      challenge.scoringMode ≠ "static" → other = challengeId → solves →
      dynamicValue decayed challenge (s.plugin.solveCount challengeId + 1) =
        dynamicValue decayed challenge (s.plugin.solveCount challengeId))
    (hcounts : CountsSolve other solves s.plugin s'.plugin) :
    OnScoreboard decayed challengeId s' := by
  intro challenge hchallenge hdynamic
  have hgot : ∀ hchallenges : s'.plugin.challenges = s.plugin.challenges,
      s.plugin.getChallenge challengeId = some challenge := by
    intro hchallenges
    unfold PluginDb.getChallenge at hchallenge ⊢
    rw [← hchallenges]
    exact hchallenge
  have hid := id_of_getChallenge hchallenge
  cases hcounts with
  | same hchallenges hsolves =>
    rw [h challenge (hgot hchallenges) hdynamic]
    simp only [currentValue, PluginDb.solveCount, hsolves]
  | counted hsolves hrow hchallenges happend =>
    rw [h challenge (hgot hchallenges) hdynamic]
    simp only [currentValue, hdynamic, if_false, hid, solveCount_append challengeId happend, hrow]
    by_cases hsame : other = challengeId
    · rw [if_pos hsame]
      exact (hkeeps challenge (hgot hchallenges) hdynamic hsame hsolves).symm
    · rw [if_neg hsame]

theorem OnScoreboard.update {other : Nat} {data : List ScoringField}
    (h : OnScoreboard decayed challengeId s)
    (hkeeps : KeepsValue decayed compare challengeId s (.update other data)) :
    OnScoreboard decayed challengeId
      { s with plugin := s.plugin.updateChallenge other data } := by
  intro updated hupdated hdynamic
  rw [getChallenge_updateChallenge] at hupdated
  obtain ⟨challenge, hchallenge, heq⟩ := Option.map_eq_some_iff.mp hupdated
  have hid := id_of_getChallenge hchallenge
  have hcount : { s with plugin := s.plugin.updateChallenge other data }.plugin.solveCount challengeId =
      s.plugin.solveCount challengeId := rfl
  by_cases hsame : other = challengeId
  · subst hsame
    rw [if_pos hid] at heq
    subst heq
    simp only [currentValue, hdynamic, if_false, id_setAll, hid, hcount]
    exact (hkeeps challenge hchallenge).2 data rfl hdynamic
  · rw [if_neg (by rw [hid]; exact fun h => hsame h.symm)] at heq
    subst heq
    rw [h challenge hchallenge hdynamic]
    simp only [currentValue, hdynamic, if_false, hid, hcount]

/-- **Every step that keeps the value** keeps it on the scoreboard. -/
theorem OnScoreboard.step (h : OnScoreboard decayed challengeId s)
    (hkeeps : KeepsValue decayed compare challengeId s event)
    (hstep : ScoringStep rpc compare s event s') : OnScoreboard decayed challengeId s' := by
  cases hstep with
  | submitFlag hends =>
    refine h.of_countsSolve ?_ (hends.of_wp wp_submitFlag_countsSolve)
    rintro challenge hchallenge hdynamic rfl hsolves
    exact (hkeeps challenge hchallenge).1 hdynamic hsolves
  | attempt haccount hends =>
    refine h.of_countsSolve ?_ (hends.of_wp (wp_dispatchAttempt_countsSolve haccount))
    rintro challenge hchallenge hdynamic rfl hsolves
    exact (hkeeps challenge hchallenge).1 hdynamic hsolves
  | update => exact h.update hkeeps

end Steps

/-- **Dynamic values on the scoreboard.**  In every run whose submissions and updates keep the value,
    the stored value of a challenge that is not static is the decayed one. -/
theorem dynamic_onScoreboard (decayed : FloatDecay) (compare : FlagComparison) (rpc : RpcSem)
    (challengeId : Nat) (s₀ s : Site) (hstart : OnScoreboard decayed challengeId s₀)
    (hrun : ScoringRun rpc compare (KeepsValue decayed compare challengeId) s₀ s) :
    OnScoreboard decayed challengeId s := by
  induction hrun with
  | start => exact hstart
  | step _ hkeeps hstep ih => exact ih.step hkeeps hstep

/-! ## Two solves -/

/-- `_dynamic_value` where the floating-point numbers are exact. -/
def exactDecay : FloatDecay := fun initial minimum solveCount decay =>
  roundHalfEven (initial - (initial - minimum) * ((solveCount : Rat) / decay))

/-- A challenge worth 500 points at first and 100 after two solves, and its stored value. -/
def decayingSite (value : Int) (solves : List Submission) : Site :=
  { freshSite with plugin := { freshSite.plugin with
    flags := [⟨1, 1, "static", "one", ""⟩]
    nextFlagId := 2
    solves := solves
    challenges := [⟨1, "web", none, none, none, none, none, false, none, "vpn",
      some value, "dynamic", some 500, some 100, some 2⟩] } }

def submitsOne : Plugin Response := UserRoutes.submitFlag sameContent (some 1) 1 (some "one") ""

/-- Two other participants have solved the challenge. -/
def decayedSite : Site :=
  decayingSite 100 [⟨2, none, 1, "", "one"⟩, ⟨3, none, 1, "", "one"⟩]

theorem submitsOne_counts : (quietRun submitsOne decayedSite).any (fun r =>
    decide (r.2.plugin.solves.length = 3)) = true := by
  decide +kernel

theorem keepsValue_decayedSite {event : ScoringEvent} (h : ∀ data, event ≠ .update 1 data) :
    KeepsValue exactDecay sameContent 1 decayedSite event := by
  intro challenge hchallenge
  obtain rfl := Option.some.inj hchallenge
  refine ⟨fun _ _ => rfl, ?_⟩
  rintro data rfl
  exact absurd rfl (h data)

/-- A third solve leaves the value at its minimum. -/
theorem dynamic_onScoreboard_decayed : ∃ out s, quietRun submitsOne decayedSite = some (out, s) ∧
    s.plugin.solves.length = 3 ∧ OnScoreboard exactDecay 1 s := by
  obtain ⟨⟨out, s⟩, hrun, hcount⟩ := (Option.any_eq_true _ _).mp submitsOne_counts
  refine ⟨out, s, hrun, of_decide_eq_true hcount, ?_⟩
  have hstep : ScoringStep (Served DaemonEnv.default) sameContent decayedSite
      (.submitFlag (some 1) 1 (some "one") "") s := .submitFlag (ends_of_quietRun hrun)
  have hstart : OnScoreboard exactDecay 1 decayedSite := by
    intro challenge hchallenge _
    obtain rfl := Option.some.inj hchallenge
    rfl
  have hkeeps : KeepsValue exactDecay sameContent 1 decayedSite
      (.submitFlag (some 1) 1 (some "one") "") := keepsValue_decayedSite fun _ h => nomatch h
  exact dynamic_onScoreboard exactDecay sameContent (Served DaemonEnv.default) 1 decayedSite s hstart
    (ScoringRun.start.step hkeeps hstep)

theorem submitsOne_decays : (quietRun submitsOne (decayingSite 500 [])).any (fun r =>
    (r.2.plugin.getChallenge 1).any fun challenge => decide (challenge.scoringMode ≠ "static" ∧
      orDefault challenge.value 0 = 500 ∧ currentValue exactDecay r.2.plugin challenge = 300)) =
      true := by
  decide +kernel

/-- After the first solve the challenge is shown with 300 points, and awards 500. -/
theorem not_dynamic_onScoreboard : ¬ ∀ (decayed : FloatDecay) (compare : FlagComparison) (rpc : RpcSem)
    (challengeId : Nat) (s₀ s : Site), OnScoreboard decayed challengeId s₀ →
    ScoringRun rpc compare (fun _ _ => True) s₀ s → OnScoreboard decayed challengeId s := by
  intro hall
  obtain ⟨⟨out, s⟩, hrun, hdecays⟩ := (Option.any_eq_true _ _).mp submitsOne_decays
  obtain ⟨challenge, hchallenge, hvalues⟩ := (Option.any_eq_true _ _).mp hdecays
  obtain ⟨hdynamic, hstored, hshown⟩ := of_decide_eq_true hvalues
  have hstart : OnScoreboard exactDecay 1 (decayingSite 500 []) := by
    intro challenge hchallenge _
    obtain rfl := Option.some.inj hchallenge
    decide +kernel
  have hstep : ScoringStep (Served DaemonEnv.default) sameContent (decayingSite 500 [])
      (.submitFlag (some 1) 1 (some "one") "") s := .submitFlag (ends_of_quietRun hrun)
  have hboard := hall exactDecay sameContent (Served DaemonEnv.default) 1 (decayingSite 500 []) s hstart
    (ScoringRun.start.step trivial hstep) challenge hchallenge hdynamic
  rw [hstored, hshown] at hboard
  cases hboard

end EdoPlugin
