import EdoPlugin.SiteHistory

/-!
# Rules for the helpers of the routes

One rule of `wp` for each helper that several routes share: the checks on the caller, settings,
clocks and expired objects.  None of them writes.
-/

namespace EdoPlugin

open Interaction

variable {rpc : RpcSem} {α : Type} {Q : Except PluginErr α → Site → Prop} {s : Site}

theorem wp_settingOf {key : String} {default : Int} {f : Int → Plugin α}
    (h : wp (siteSem rpc) (fun _ _ => True) (f (s.plugin.setting key default)) Q s) :
    wp (siteSem rpc) (fun _ _ => True) (settingOf key default >>= f) Q s :=
  wp_bind.mpr (wp_select trivial h)

theorem wp_currentUserId {caller : Option Int} {f : Int → Plugin α}
    (hsome : ∀ user, s.plugin.currentUser caller = some user →
      wp (siteSem rpc) (fun _ _ => True) (f user.id) Q s)
    (hnone : ∀ err, Q (.error err) s) :
    wp (siteSem rpc) (fun _ _ => True) (currentUserId caller >>= f) Q s := by
  refine wp_bind.mpr (wp_select trivial ?_)
  cases huser : s.plugin.currentUser caller with
  | some user => exact hsome user huser
  | none => exact hnone _

theorem wp_ownerRequired {caller : Option Int} {fn : Plugin Response}
    {Q : Except PluginErr Response → Site → Prop} (hrefused : ∀ refusal, Q (.ok (.refused refusal)) s)
    (h : ∀ owner, s.plugin.resolveOwner caller = some owner →
      wp (siteSem rpc) (fun _ _ => True) fn Q s) :
    wp (siteSem rpc) (fun _ _ => True) (ownerRequired caller fn) Q s := by
  refine wp_select trivial ?_
  cases s.plugin.currentUser caller with
  | none => exact hrefused _
  | some user =>
    cases howner : s.plugin.resolveOwner caller with
    | none => exact hrefused _
    | some owner => exact h owner howner

/-- The second look at the owner finds the one the decorator found. -/
theorem wp_resolvedOwner {caller : Option Int} {owner : Owner} {f : Owner → Plugin α}
    (howner : s.plugin.resolveOwner caller = some owner)
    (h : wp (siteSem rpc) (fun _ _ => True) (f owner) Q s) :
    wp (siteSem rpc) (fun _ _ => True) (resolvedOwner caller >>= f) Q s := by
  refine wp_bind.mpr (wp_select trivial ?_)
  rw [howner]
  exact h

/-- The limiter raises only when it has no oldest call to compute the wait from. -/
theorem checkRateLimit_error {buckets : RateBuckets} {key : RateKey} {limit window : Int} {now : Rat}
    {err : PluginErr} (h : (checkRateLimit buckets key limit window now).1 = .error err) :
    ∃ msg, err = .indexError msg := by
  unfold checkRateLimit at h
  dsimp only at h
  generalize (buckets key).dropWhile _ = bucket at h
  split at h
  · cases bucket with
    | nil =>
      cases h
      exact ⟨_, rfl⟩
    | cons oldest rest => cases h
  · cases h

theorem wp_checkRate {key : RateKey} {limit window : Int} {f : Bool × Int → Plugin α}
    (hok : ∀ allowed buckets,
      wp (siteSem rpc) (fun _ _ => True) (f allowed) Q { s with buckets := buckets })
    (herror : ∀ msg buckets, Q (.error (.indexError msg)) { s with buckets := buckets }) :
    wp (siteSem rpc) (fun _ _ => True) (checkRate key limit window >>= f) Q s := by
  refine wp_bind.mpr ⟨trivial, ?_⟩
  rintro allowed s' ⟨now, rfl, rfl⟩
  cases hallowed : (checkRateLimit s.buckets key limit window now).1 with
  | ok allowed => exact hok allowed _
  | error err =>
    obtain ⟨msg, rfl⟩ := checkRateLimit_error hallowed
    exact herror msg _

theorem wp_refreshInstance {instanceId : Nat} {f : EdoInstance → Plugin α}
    (hsome : ∀ row, s.plugin.getInstance instanceId = some row →
      wp (siteSem rpc) (fun _ _ => True) (f row) Q s)
    (hnone : s.plugin.getInstance instanceId = none → Q (.error .objectDeletedError) s) :
    wp (siteSem rpc) (fun _ _ => True) (refreshInstance instanceId >>= f) Q s := by
  refine wp_bind.mpr (wp_select trivial ?_)
  cases hrow : s.plugin.getInstance instanceId with
  | some row => exact hsome row hrow
  | none => exact hnone hrow

theorem wp_ownedInstance {caller : Option Int} {owner : Owner} {instanceId : Nat}
    {f : Except Refusal EdoInstance → Plugin α}
    (howner : s.plugin.resolveOwner caller = some owner)
    (hrefused : ∀ refusal, s.plugin.getInstance instanceId = none ∨
        (∃ row, s.plugin.getInstance instanceId = some row ∧ row.owner ≠ owner) →
      wp (siteSem rpc) (fun _ _ => True) (f (.error refusal)) Q s)
    (hrow : ∀ row, s.plugin.getInstance instanceId = some row → row.owner = owner →
      wp (siteSem rpc) (fun _ _ => True) (f (.ok row)) Q s) :
    wp (siteSem rpc) (fun _ _ => True) (UserRoutes.ownedInstance caller instanceId >>= f) Q s := by
  refine wp_bind.mpr (wp_resolvedOwner howner (wp_select trivial ?_))
  cases hget : s.plugin.getInstance instanceId with
  | none => exact hrefused _ (Or.inl hget)
  | some row =>
    by_cases hown : row.owner = owner
    · simp only [hown, ne_eq, not_true_eq_false, if_false]
      exact hrow row hget hown
    · simp only [ne_eq, hown, not_false_eq_true, if_true]
      exact hrefused _ (Or.inr ⟨row, hget, hown⟩)

/-- The rule of a sequence. -/
theorem wp_then {β : Type} {p : Plugin β} {f : β → Plugin α} {R : Except PluginErr β → Site → Prop}
    (hp : wp (siteSem rpc) (fun _ _ => True) p R s)
    (hok : ∀ value s', R (.ok value) s' → wp (siteSem rpc) (fun _ _ => True) (f value) Q s')
    (herror : ∀ err s', R (.error err) s' → Q (.error err) s') :
    wp (siteSem rpc) (fun _ _ => True) (p >>= f) Q s := by
  refine wp_bind.mpr (wp_mono hp ?_)
  intro out s' hR
  cases out with
  | ok value => exact hok value s' hR
  | error err => exact herror err s' hR

theorem wp_branch {c : Prop} [Decidable c] {p q : Plugin α}
    (hp : c → wp (siteSem rpc) (fun _ _ => True) p Q s)
    (hq : ¬ c → wp (siteSem rpc) (fun _ _ => True) q Q s) :
    wp (siteSem rpc) (fun _ _ => True) (if c then p else q) Q s := by
  split
  · rename_i hc
    exact hp hc
  · rename_i hc
    exact hq hc

end EdoPlugin
