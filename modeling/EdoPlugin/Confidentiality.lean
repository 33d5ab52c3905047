import EdoPlugin.ParticipantView
import EdoPlugin.ProgressFrame

/-!
# What a participant can find out

Requests of one participant alternate with requests of others, who spawn, submit and tear down.  What
the others do changes nothing of what the participant looks at, so the participant's answers can be
the same without their requests: nothing of them can be found out.
-/

namespace EdoPlugin

open Interaction ChallengeType

variable {userId : Int} {owner : Owner} {db db' : PluginDb} {s t : Site}

/-! ## The requests of the others -/

/-- The calls that write to instances and peers alone, and do not count as attempts. -/
def sparesAttempts : SiteOp → Prop
  | .rateLimit .. => False
  | op => sparesProgress op

theorem sparesAttempts_sem {rpc : RpcSem} {s s' : Site} {op : SiteOp} {res : op.Res}
    (hcall : sparesAttempts op) (hsem : siteSem rpc s op res s') :
    s.plugin.SameProgress s'.plugin ∧ s'.buckets = s.buckets := by
  have hspares : sparesProgress op := by
    cases op with
    | rateLimit key limit window => exact hcall.elim
    | _ => exact hcall
  refine ⟨sparesProgress_sem hspares hsem, ?_⟩
  cases op with
  | rateLimit key limit window => exact hcall.elim
  | utcnow => rw [show s' = s from hsem]
  | _ => rw [hsem.2]

theorem housekeeping_sparesAttempts : Housekeeping sparesAttempts := by
  refine ⟨⟨trivial, trivial⟩, fun _ _ => trivial, fun _ => trivial, ?_⟩
  intro writes hwrites write hwrite
  exact (hwrites write hwrite).sparesProgress

section Others

variable {rpc : RpcSem} {env : DaemonEnv} {compare : FlagComparison} {other : Owner} {α : Type}
  {caller : Option Int} {row : Submission} {challengeId flagId : Nat}

theorem wp_sparesAttempts {p : Plugin α} (hp : CallsOnly sparesAttempts p) :
    wp (siteSem rpc) (fun _ _ => True) p
      (fun _ s' => s.plugin.SameProgress s'.plugin ∧ s'.buckets = s.buckets) s := by
  apply wp_guard_mono (hp.preserves
    (I := fun s' : Site => s.plugin.SameProgress s'.plugin ∧ s'.buckets = s.buckets) ?_
    ⟨.refl _, rfl⟩) fun _ _ _ => trivial
  rintro s₁ op res s₂ hcall ⟨hprogress, hbuckets⟩ hsem
  obtain ⟨hprogress', hbuckets'⟩ := sparesAttempts_sem hcall hsem
  exact ⟨hprogress.trans hprogress', hbuckets'.trans hbuckets⟩

/-- An instance or a peer of somebody else. -/
theorem PluginDb.SameFor.of_othersKept (howned : db.resolveOwner (some userId) = some owner)
    (hother : owner ≠ other) (hprogress : db.SameProgress db') (hkept : db.OthersKept other db') :
    db.SameFor userId owner db' := by
  have hsame : ∀ {β : Type} (field : PluginDb → β), field db' = field { db with
      instances := db'.instances, nextInstanceId := db'.nextInstanceId, peers := db'.peers } :=
    fun field => congrArg field hprogress
  refine ⟨howned, ?_, ?_, ?_, hsame PluginDb.challenges, hsame PluginDb.flags,
    hsame PluginDb.flagWeights, hsame PluginDb.settings, hkept.instances owner hother,
    hkept.flagSolves owner hother, ?_, ?_⟩
  · rw [← howned]
    exact hkept.accounts.resolveOwner _
  · unfold PluginDb.getUser
    rw [hkept.accounts.users]
  · rw [hkept.accounts.teams]
  · rw [hsame PluginDb.solves]
  · rw [hsame PluginDb.fails]

/-- A submission of somebody else does not reach the participant. -/
theorem not_reaches (howned : db.resolveOwner (some userId) = some owner)
    (hrow : db.resolveOwner (some row.userId) = some other)
    (hsolver : other = solverOf row.userId row.teamId) (hother : owner ≠ other) :
    row.reaches userId owner = false := by
  have huser : row.userId ≠ userId := by
    intro hsame
    rw [hsame, howned] at hrow
    exact hother (Option.some.inj hrow)
  simp only [Submission.reaches, Submission.belongsTo, Bool.or_eq_false_iff]
  refine ⟨decide_eq_false huser, ?_⟩
  by_cases hteam : owner.ownerType = "team"
  · rw [if_pos hteam]
    apply decide_eq_false
    intro hid
    rw [hid] at hsolver
    apply hother
    rw [hsolver, ((solverOf_owned howned).1 hteam).2]
    rfl
  · rw [if_neg hteam, (solverOf_owned howned).2 hteam]
    exact decide_eq_false huser

theorem append_unreached {rows : List Submission} (h : row.reaches userId owner = false) :
    ((rows ++ [row]).filter fun row => row.reaches userId owner) =
      rows.filter fun row => row.reaches userId owner := by
  rw [List.filter_append, List.filter_cons_of_neg (by simp [h]), List.filter_nil, List.append_nil]

theorem PluginDb.SameFor.withFind (howned : db.resolveOwner (some userId) = some owner)
    (hother : owner ≠ other) : db.SameFor userId owner (db.withFind challengeId flagId other) := by
  have hrow : EdoFlagSolve.owner ⟨challengeId, flagId, other⟩ = other := rfl
  exact { refl howned with flagSolves := filter_append_other hrow hother }

/-- Whatever comes of a submission of somebody else. -/
theorem PluginDb.SameFor.of_judged {out : Except PluginErr Response}
    (howned : db.resolveOwner (some userId) = some owner) (hother : owner ≠ other)
    (hrow : db.resolveOwner (some row.userId) = some other)
    (hsolver : other = solverOf row.userId row.teamId)
    (hjudged : Judged compare db other row out db') : db.SameFor userId owner db' := by
  have hunreached := not_reaches howned hrow hsolver hother
  have hfind : ∀ flagId, db.SameFor userId owner (db.withFind row.challengeId flagId other) :=
    fun flagId => .withFind howned hother
  cases hjudged with
  | incorrect hmatch => exact { refl howned with fails := append_unreached hunreached }
  | alreadyFound hmatch hfound hcomplete => exact .refl howned
  | found hmatch hnew hincomplete => exact hfind _
  | completed hmatch hnew hsolve => exact hfind _
  | scored hmatch hnew hcomplete hnone =>
    exact { hfind _ with solves := append_unreached hunreached }
  | conflict hmatch hnew hnone hrefused => exact hfind _

theorem wp_checkRate_bucket {key : RateKey} {limit window : Int} {f : Bool × Int → Plugin α}
    {Q : Except PluginErr α → Site → Prop}
    (hok : ∀ allowed buckets, (∀ key', key' ≠ key → buckets key' = s.buckets key') →
      wp (siteSem rpc) (fun _ _ => True) (f allowed) Q { s with buckets := buckets })
    (herror : ∀ err buckets, (∀ key', key' ≠ key → buckets key' = s.buckets key') →
      Q (.error err) { s with buckets := buckets }) :
    wp (siteSem rpc) (fun _ _ => True) (checkRate key limit window >>= f) Q s := by
  apply wp_bind.mpr
  refine ⟨trivial, ?_⟩
  rintro allowed s' ⟨now, rfl, rfl⟩
  cases (checkRateLimit s.buckets key limit window now).1 with
  | ok allowed => exact hok allowed _ fun _ => checkRateLimit_other
  | error err => exact herror err _ fun _ => checkRateLimit_other

/-- A submission counts as an attempt of its owner, and is compared with the flags for its solver. -/
theorem wp_submitFlag_keeping {I : Site → Prop} {provided : Option String} {ip : String}
    (howner : s.plugin.resolveOwner caller = some other) (hsame : I s)
    (hbuckets : ∀ buckets, (∀ key : RateKey, key.1 ≠ other → buckets key = s.buckets key) →
      I { s with buckets := buckets })
    (hjudge : ∀ user team submission buckets, s.plugin.currentUser caller = some user →
      other = solverOf user.id team →
      (∀ key : RateKey, key.1 ≠ other → buckets key = s.buckets key) →
      wp (siteSem rpc) (fun _ _ => True) (UserRoutes.judgeSubmission compare challengeId other user.id
        team submission ip) (fun _ s' => I s') { s with buckets := buckets }) :
    wp (siteSem rpc) (fun _ _ => True)
      (UserRoutes.submitFlag compare caller challengeId provided ip) (fun _ s' => I s') s := by
  obtain ⟨user, huser, -⟩ := Option.bind_eq_some_iff.mp howner
  have hothers : ∀ {buckets : RateBuckets},
      (∀ key, key ≠ (other, challengeId) → buckets key = s.buckets key) →
      ∀ key : RateKey, key.1 ≠ other → buckets key = s.buckets key :=
    fun hkept key hkey => hkept key fun h => hkey (congrArg Prod.fst h)
  apply wp_ownerRequired
  · exact fun _ => hsame
  intro _ _
  apply wp_resolvedOwner howner
  apply wp_select trivial
  cases s.plugin.getChallenge challengeId with
  | none => exact hsame
  | some challenge =>
    apply wp_settingOf
    apply wp_settingOf
    apply wp_checkRate_bucket
    · intro allowed buckets hkept
      have hI := hbuckets buckets (hothers hkept)
      apply wp_branch
      · intro _
        refine wp_submitterOf (s := { s with buckets := buckets }) huser ?_
        refine wp_teamOf (s := { s with buckets := buckets }) huser howner ?_
        intro team hsolver
        rw [solverOf_ownerId hsolver]
        apply wp_attemptsExhausted
        apply wp_branch
        · exact fun _ => hI
        · intro _
          apply wp_branch
          · exact fun _ => hI
          · exact fun _ => hjudge user team _ buckets huser hsolver (hothers hkept)
      · exact fun _ => hI
    · exact fun _ buckets hkept => hbuckets buckets (hothers hkept)

/-- The calls of a comparison with the flags. -/
def sparesBuckets : SiteOp → Prop
  | .select | .commit _ => True
  | _ => False

theorem wp_sparesBuckets {p : Plugin α} (hp : CallsOnly sparesBuckets p) :
    wp (siteSem rpc) (fun _ _ => True) p (fun _ s' => s'.buckets = s.buckets) s := by
  apply wp_guard_mono (hp.preserves (I := fun s' : Site => s'.buckets = s.buckets) ?_ rfl)
    fun _ _ _ => trivial
  intro s₁ op res s₂ hcall hbuckets hsem
  cases op with
  | select | commit _ =>
    rw [hsem.2]
    exact hbuckets
  | _ => exact hcall.elim

theorem sameFor_submitFlag {provided : Option String} {ip : String}
    (howned : s.plugin.resolveOwner (some userId) = some owner) (hother : owner ≠ other)
    (howner : s.plugin.resolveOwner caller = some other) :
    wp (siteSem rpc) (fun _ _ => True) (UserRoutes.submitFlag compare caller challengeId provided ip)
      (fun _ s' => s.SameFor userId owner s') s := by
  have hbucket : ∀ {buckets : RateBuckets},
      (∀ key : RateKey, key.1 ≠ other → buckets key = s.buckets key) →
      ∀ challengeId, buckets (owner, challengeId) = s.buckets (owner, challengeId) :=
    fun hkept _ => hkept _ hother
  apply wp_submitFlag_keeping howner
  · exact ⟨.refl howned, fun _ => rfl⟩
  · exact fun buckets hkept => ⟨.refl howned, hbucket hkept⟩
  · intro user team submission buckets huser hsolver hkept
    have hresolved := resolveOwner_of_currentUser huser howner
    have hcalls : CallsOnly sparesBuckets (UserRoutes.judgeSubmission compare challengeId other
        user.id team submission ip) := by
      apply Judging.judgeSubmission
      subst hsolver
      exact ⟨trivial, fun _ _ _ => trivial, fun _ => trivial, fun _ _ _ => trivial⟩
    apply wp_mono (wp_and (wp_judgeSubmission hsolver) (wp_sparesBuckets hcalls))
    rintro out s' ⟨hjudged, hbuckets⟩
    constructor
    · exact .of_judged howned hother hresolved hsolver hjudged
    · intro challengeId
      rw [hbuckets]
      exact hbucket hkept challengeId

theorem wp_unattended {I : Site → Prop} {p : Plugin α}
    (hp : wp (siteSem rpc) (fun _ _ => True) p (fun _ s' => I s') s) :
    wp (siteSem rpc) (fun _ _ => True) (unattended p) (fun _ s' => I s') s := by
  have hbody : wp (siteSem rpc) (fun _ _ => True) (do
      let _ ← p
      return ()) (fun _ s' => I s') s := wp_then hp (fun _ _ hI => hI) fun _ _ hI => hI
  apply wp_catching.mpr
  apply wp_mono hbody
  intro out s' hI
  cases out with
  | ok _ => exact hI
  | error _ => exact hI

/-- A caller without an owner gets nothing done. -/
theorem wp_unowned {request : SiteRequest} (hcaller : request.participant? = some caller)
    (hnone : s.plugin.resolveOwner caller = none) :
    wp (siteSem rpc) (fun _ _ => True) (request.prog compare) (fun _ s' => s' = s) s := by
  have hroute : ∀ {fn : Plugin Response}, wp (siteSem rpc) (fun _ _ => True) (ownerRequired caller fn)
      (fun _ s' => s' = s) s := by
    intro fn
    apply wp_ownerRequired
    · exact fun _ => rfl
    · intro owner howner
      rw [hnone] at howner
      cases howner
  cases request with
  | route call =>
    apply wp_unattended (I := fun s' => s' = s)
    cases call <;> cases hcaller <;> exact hroute
  | dashboardData _ => exact wp_reads (callsOnly_unattended reading_readsSite.dashboardData)
  | challengeProgress _ _ => exact wp_reads (callsOnly_unattended reading_readsSite.challengeProgress)
  | sweepExpired => cases hcaller
  | reconcile => cases hcaller

theorem spares_unsubmitted {request : SiteRequest} (hcaller : request.participant? = some caller)
    (hsubmits : ∀ challengeId provided ip,
      request ≠ .route (.submitFlag caller challengeId provided ip)) :
    CallsOnly sparesAttempts (request.prog compare) := by
  have hkeeps := housekeeping_sparesAttempts
  have hcommit : ∀ {write : Write}, write.SparesProgress → sparesAttempts (.commit [write]) := by
    intro write hspares added hadded
    rw [List.mem_singleton.mp hadded]
    exact hspares
  cases request with
  | route call =>
    apply callsOnly_unattended
    cases call with
    | spawnInstance _ _ =>
      apply callsOnly_spawnInstance hkeeps.toReading
      · exact fun _ _ _ => trivial
      · intro instanceId
        exact ⟨fun _ => trivial, hcommit trivial, fun _ => hcommit trivial⟩
    | teardownInstance _ _ => exact hkeeps.teardownInstance
    | extendInstance _ _ => exact hkeeps.extendInstance
    | downloadWgConfig _ => exact hkeeps.downloadWgConfig
    | submitFlag _ challengeId provided ip =>
      cases hcaller
      exact (hsubmits challengeId provided ip rfl).elim
    | _ => cases hcaller
  | dashboardData _ => exact callsOnly_unattended hkeeps.toReading.dashboardData
  | challengeProgress _ _ => exact callsOnly_unattended hkeeps.toReading.challengeProgress
  | sweepExpired => cases hcaller
  | reconcile => cases hcaller

/-- Nobody outside the participant's owner can change what the participant is to see. -/
theorem sameFor_request {request : SiteRequest} {issued : ContainerId → SpawnKey}
    (h : s.Ledger issued) (howned : s.plugin.resolveOwner (some userId) = some owner)
    (hcaller : request.participant? = some caller)
    (hother : s.plugin.resolveOwner caller ≠ some owner) :
    wp (siteSem (Unreliable env)) (fun _ _ => True) (request.prog compare)
      (fun _ s' => s.SameFor userId owner s') s := by
  cases howner : s.plugin.resolveOwner caller with
  | none =>
    apply wp_mono (wp_unowned hcaller howner)
    rintro _ _ rfl
    exact ⟨.refl howned, fun _ => rfl⟩
  | some other =>
    have hne : owner ≠ other := by
      rintro rfl
      exact hother howner
    by_cases hsubmits : ∃ challengeId provided ip,
        request = .route (.submitFlag caller challengeId provided ip)
    · obtain ⟨challengeId, provided, ip, rfl⟩ := hsubmits
      exact wp_unattended (sameFor_submitFlag howned hne howner)
    · have hspares : CallsOnly sparesAttempts (request.prog compare) := by
        apply spares_unsubmitted hcaller
        exact fun challengeId provided ip heq => hsubmits ⟨challengeId, provided, ip, heq⟩
      have hkept : KeepsOthers env other (request.prog compare) s :=
        keepsOthers_request h hcaller howner
      apply wp_mono (wp_and hkept (wp_sparesAttempts hspares))
      rintro out s' ⟨hothers, hprogress, hbuckets⟩
      constructor
      · exact .of_othersKept howned hne hprogress hothers.plugin
      · intro challengeId
        rw [hbuckets]

end Others

/-! ## Both together -/

/-- A request of the participant that is answered from the plugin's own tables. -/
inductive OwnRequest where
  | dashboardData
  | challengeProgress (challengeId : Nat)
  | submitFlag (challengeId : Nat) (provided : Option String) (ip : String)
deriving DecidableEq, Repr

namespace OwnRequest

abbrev Answer : OwnRequest → Type
  | .dashboardData => Except Refusal Dashboard
  | .challengeProgress _ => Except Refusal Progress
  | .submitFlag .. => Response

def prog (compare : FlagComparison) (userId : Int) : (request : OwnRequest) → Plugin request.Answer
  | .dashboardData => UserRoutes.dashboardData (some userId)
  | .challengeProgress challengeId => UserRoutes.challengeProgress (some userId) challengeId
  | .submitFlag challengeId provided ip =>
    UserRoutes.submitFlag compare (some userId) challengeId provided ip

/-- The request among those of the site. -/
def toSite (userId : Int) : OwnRequest → SiteRequest
  | .dashboardData => .dashboardData (some userId)
  | .challengeProgress challengeId => .challengeProgress (some userId) challengeId
  | .submitFlag challengeId provided ip => .route (.submitFlag (some userId) challengeId provided ip)

end OwnRequest

/-- A request of the participant with what came of it, or one of somebody else. -/
inductive Turn where
  | own (request : OwnRequest) (answer : Except PluginErr request.Answer)
  | others (request : SiteRequest)

def Turn.isOwn : Turn → Bool
  | .own .. => true
  | .others _ => false

/-- Requests of a participant and of others, one after the other. -/
inductive Plays (env : DaemonEnv) (compare : FlagComparison) (userId : Int) :
    List Turn → Site → Site → Prop
  | done {s : Site} : Plays env compare userId [] s s
  | own {request : OwnRequest} {answer : Except PluginErr request.Answer} {turns : List Turn}
      {s s₁ s' : Site} :
      Ends (siteSem (Unreliable env)) (request.prog compare userId) s answer s₁ →
      Plays env compare userId turns s₁ s' →
      Plays env compare userId (.own request answer :: turns) s s'
  | others {request : SiteRequest} {caller : Option Int} {out : Except PluginErr Unit}
      {turns : List Turn} {s s₁ s' : Site} : request.participant? = some caller →
      s.plugin.resolveOwner caller ≠ s.plugin.resolveOwner (some userId) →
      Ends (siteSem (Unreliable env)) (request.prog compare) s out s₁ →
      Plays env compare userId turns s₁ s' → Plays env compare userId (.others request :: turns) s s'

section Histories

variable {env : DaemonEnv} {compare : FlagComparison} {rpc rpc' : RpcSem}

theorem unaffected_request {request : OwnRequest} :
    Unaffected rpc rpc' userId owner (request.prog compare userId) := by
  cases request with
  | dashboardData => exact unaffected_dashboardData
  | challengeProgress challengeId => exact unaffected_challengeProgress
  | submitFlag challengeId provided ip => exact unaffected_submitFlag

/-- Whatever comes of a program, nobody waits for it. -/
theorem ends_unattended {α : Type} {p : Plugin α} {out : Except PluginErr α}
    (h : Ends (siteSem rpc) p s out t) : Ends (siteSem rpc) (unattended p) s (.ok ()) t := by
  cases out with
  | ok value => exact Ends.catching_ok (h.bind .ret)
  | error err => exact Ends.catching_error h.bind_error .ret

theorem OwnRequest.ends_toSite {request : OwnRequest} {answer : Except PluginErr request.Answer}
    (h : Ends (siteSem rpc) (request.prog compare userId) s answer t) :
    Ends (siteSem rpc) ((request.toSite userId).prog compare) s (.ok ()) t := by
  cases request with
  | dashboardData | challengeProgress _ | submitFlag _ _ _ => exact ends_unattended h

/-- **Participants see their own.**  From every site there can be, whatever the others request in
    between, a participant's dashboards, progress and submissions can have the same answers without
    these requests, and on any site that differs in what belongs to others alone; and then again all
    that differs belongs to others. -/
theorem participants_seeTheirOwn (env : DaemonEnv) (compare : FlagComparison) (userId : Int)
    (owner : Owner) (turns : List Turn) (threads : List (Thread siteEffect PluginErr Unit))
    (s t s' : Site) (hlife : SiteLife env compare ⟨s, threads⟩) (hsame : s.SameFor userId owner t)
    (hplays : Plays env compare userId turns s s') :
    ∃ t', Plays env compare userId (turns.filter Turn.isOwn) t t' ∧ s'.SameFor userId owner t' := by
  induction hplays generalizing t with
  | done => exact ⟨t, .done, hsame⟩
  | @own request answer turns s s₁ s' hends _ ih =>
    have hafter := (hlife.arrival (request.toSite userId)).ends (OwnRequest.ends_toSite hends)
    obtain ⟨t₁, hends', hsame'⟩ := unaffected_request s t hsame _ _ hends
    obtain ⟨t', hplays', hleft⟩ := ih t₁ hafter hsame'
    exact ⟨t', .own hends' hplays', hleft⟩
  | @others request caller out turns s s₁ s' hcaller hother hends _ ih =>
    obtain ⟨issued, hledger, -⟩ := Bookkept.of_life hlife
    have howned := hsame.plugin.owned
    rw [howned] at hother
    have hkept : s.SameFor userId owner s₁ :=
      hends.of_wp (sameFor_request hledger howned hcaller hother)
    exact ih t ((hlife.arrival request).ends hends) (hkept.symm.trans hsame)

end Histories

/-! ## One participant looks while another one plays -/

/-- What is asked in an uneventful history. -/
inductive Asked where
  | own (request : OwnRequest)
  | others (caller : Option Int) (request : SiteRequest)

/-- The turns of the history, with their answers, and what they leave. -/
def quietPlays (userId : Int) : List Asked → Site → Option (List Turn × Site)
  | [], s => some ([], s)
  | .own request :: asked, s => do
    let (_, answer, s₁) ← (siteMachine (execRpc DaemonEnv.default)).run (quietSiteChoice 0)
      (request.prog sameContent userId) s
    let (turns, s') ← quietPlays userId asked s₁
    return (.own request answer :: turns, s')
  | .others caller request :: asked, s => do
    guard (request.participant? = some caller ∧
      s.plugin.resolveOwner caller ≠ s.plugin.resolveOwner (some userId))
    let (_, _, s₁) ← (siteMachine (execRpc DaemonEnv.default)).run (quietSiteChoice 0)
      (request.prog sameContent) s
    let (turns, s') ← quietPlays userId asked s₁
    return (.others request :: turns, s')

theorem plays_of_quietPlays {asked : List Asked} {turns : List Turn}
    (h : quietPlays userId asked s = some (turns, t)) :
    Plays DaemonEnv.default sameContent userId turns s t := by
  have hsound := executes_unreliable DaemonEnv.default
  induction asked generalizing s turns with
  | nil =>
    cases h
    exact .done
  | cons first asked ih =>
    cases first with
    | own request =>
      obtain ⟨⟨trace, answer, s₁⟩, hrun, h⟩ := Option.bind_eq_some_iff.mp h
      obtain ⟨⟨rest, s'⟩, hrest, h⟩ := Option.bind_eq_some_iff.mp h
      cases h
      exact .own (ends_of_siteRun hsound hrun) (ih hrest)
    | others caller request =>
      obtain ⟨_, hguard, h⟩ := Option.bind_eq_some_iff.mp h
      obtain ⟨⟨trace, out, s₁⟩, hrun, h⟩ := Option.bind_eq_some_iff.mp h
      obtain ⟨⟨rest, s'⟩, hrest, h⟩ := Option.bind_eq_some_iff.mp h
      cases h
      unfold guard at hguard
      split at hguard
      · rename_i hcaller
        exact .others hcaller.1 hcaller.2 (ends_of_siteRun hsound hrun) (ih hrest)
      · cases hguard

/-- Between the participant's requests the other one spawns an instance and finds the flag. -/
def watchedGame : List Asked :=
  [.own (.submitFlag 1 (some "guess") "10.0.0.1"),
   .others (some 2) (.route (.spawnInstance (some 2) 1)),
   .own .dashboardData, .others (some 2) (.route (.submitFlag (some 2) 1 (some "flag") "10.0.0.2")),
   .own (.challengeProgress 1), .own (.submitFlag 1 (some "flag") "10.0.0.1")]

/-- The other one has an instance, and both have a solve. -/
def Site.Played (s : Site) : Prop :=
  s.plugin.instances.map EdoInstance.owner = [⟨"user", 2⟩] ∧
    s.plugin.solves.map Submission.userId = [2, 1]

instance (s : Site) : Decidable s.Played := inferInstanceAs (Decidable (_ ∧ _))

theorem sharedSite_watched : (quietPlays 1 watchedGame sharedSite).any (fun result =>
    decide (result.1.length = 6 ∧ result.2.Played)) = true := by
  decide +kernel

theorem participants_seeTheirOwn_watched : ∃ turns s' t', turns.length = 6 ∧ s'.Played ∧
    Plays DaemonEnv.default sameContent 1 turns sharedSite s' ∧
    Plays DaemonEnv.default sameContent 1 (turns.filter Turn.isOwn) sharedSite t' ∧
    s'.SameFor 1 ⟨"user", 1⟩ t' := by
  obtain ⟨⟨turns, s'⟩, hrun, hplayed⟩ := (Option.any_eq_true _ _).mp sharedSite_watched
  obtain ⟨hlength, hplayed⟩ := of_decide_eq_true hplayed
  have hplays := plays_of_quietPlays hrun
  have howned : sharedSite.plugin.resolveOwner (some 1) = some ⟨"user", 1⟩ := by decide
  obtain ⟨t', hown, hsame⟩ := participants_seeTheirOwn DaemonEnv.default sameContent 1 ⟨"user", 1⟩
    turns [] sharedSite sharedSite s' (SiteLife.installed freshHost_installed rfl)
    ⟨.refl howned, fun _ => rfl⟩ hplays
  exact ⟨turns, s', t', hlength, hplayed, hplays, hown, hsame⟩

end EdoPlugin
