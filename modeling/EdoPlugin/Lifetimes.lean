import EdoPlugin.SweepExtension

/-!
# The lifetime of an instance

An instance ends at `expires_at`, which a spawn sets and an extension moves.  `_serialize_instance`
says whether an extension would be granted, from the remaining whole seconds; `extend_instance`
compares the exact remainder.  An extension adds to the end it has read, after it has found that end
within the threshold of a time it has read, and that alone bounds what any number of extensions can
collect.
-/

namespace EdoPlugin

open Interaction UserRoutes

/-! ## The button -/

/-- The answers of a site while its clock shows one time. -/
def siteSemAt (rpc : RpcSem) (now : Timestamp) : Sem siteEffect Site := fun s op res s' =>
  siteSem rpc s op res s' ∧ ShowsTime now op res

section Button

variable {rpc : RpcSem} {now : Timestamp} {s : Site} {row : EdoInstance} {instanceId : Nat}
  {caller : Option Int} {threshold : Int}

section Rules

variable {α : Type} {Q : Except PluginErr α → Site → Prop}

theorem wp_selectAt {f : PluginDb → Plugin α}
    (h : wp (siteSemAt rpc now) (fun _ _ => True) (f s.plugin) Q s) :
    wp (siteSemAt rpc now) (fun _ _ => True) (select >>= f) Q s := by
  refine ⟨trivial, ?_⟩
  rintro _ _ ⟨⟨rfl, rfl⟩, -⟩
  exact h

theorem wp_utcnowAt {f : Timestamp → Plugin α}
    (h : wp (siteSemAt rpc now) (fun _ _ => True) (f now) Q s) :
    wp (siteSemAt rpc now) (fun _ _ => True) (utcnow >>= f) Q s := by
  refine ⟨trivial, ?_⟩
  rintro _ _ ⟨rfl, rfl⟩
  exact h

theorem wp_refreshInstanceAt {f : EdoInstance → Plugin α}
    (hrow : s.plugin.getInstance instanceId = some row)
    (h : wp (siteSemAt rpc now) (fun _ _ => True) (f row) Q s) :
    wp (siteSemAt rpc now) (fun _ _ => True) (refreshInstance instanceId >>= f) Q s := by
  apply wp_bind.mpr
  apply wp_selectAt
  rw [hrow]
  exact h

theorem wp_settingOfAt {key : String} {default : Int} {f : Int → Plugin α}
    (h : wp (siteSemAt rpc now) (fun _ _ => True) (f (s.plugin.setting key default)) Q s) :
    wp (siteSemAt rpc now) (fun _ _ => True) (settingOf key default >>= f) Q s := by
  apply wp_bind.mpr
  apply wp_selectAt
  exact h

/-- `_owned_instance` lets the owner through. -/
theorem wp_ownedInstanceAt {f : Except Refusal EdoInstance → Plugin α}
    (hrow : s.plugin.getInstance instanceId = some row)
    (hcaller : s.plugin.resolveOwner caller = some row.owner)
    (h : wp (siteSemAt rpc now) (fun _ _ => True) (f (.ok row)) Q s) :
    wp (siteSemAt rpc now) (fun _ _ => True) (ownedInstance caller instanceId >>= f) Q s := by
  apply wp_bind.mpr
  apply wp_bind.mpr
  apply wp_selectAt
  rw [hcaller]
  apply wp_selectAt
  rw [hrow]
  dsimp only
  rw [if_neg fun hother => hother rfl]
  exact h

theorem wp_commitAt {writes : List Write} (db : PluginDb) {f : Unit → Plugin α}
    (hdb : s.plugin.applyAll writes = .ok db)
    (h : wp (siteSemAt rpc now) (fun _ _ => True) (f ()) Q { s with plugin := db }) :
    wp (siteSemAt rpc now) (fun _ _ => True) (commit writes >>= f) Q s := by
  apply wp_bind.mpr
  refine ⟨trivial, ?_⟩
  rintro _ _ ⟨⟨rfl, rfl⟩, -⟩
  unfold PluginDb.commit
  rw [hdb]
  exact h

end Rules

/-- The view shows the button for the whole seconds that remain. -/
theorem wp_serializeInstanceAt (hrow : s.plugin.getInstance instanceId = some row) :
    wp (siteSemAt rpc now) (fun _ _ => True) (serializeInstance instanceId threshold)
      (fun out _ => ∃ view, out = .ok view ∧ view.canExtend = decide
        (0 < wholeSeconds (row.expiresAt - now) ∧ wholeSeconds (row.expiresAt - now) ≤ threshold))
      s := by
  apply wp_utcnowAt
  apply wp_refreshInstanceAt hrow
  apply wp_selectAt
  exact ⟨_, rfl, rfl⟩

/-- An update of the time alone meets no constraint. -/
theorem updateInstance_expiresAt (hkeyed : s.plugin.Keyed)
    (hrow : s.plugin.getInstance instanceId = some row) (expiresAt : Timestamp) :
    ∃ db, s.plugin.updateInstance instanceId [.expiresAt expiresAt] = .ok db ∧
      db.getInstance instanceId = some { row with expiresAt := expiresAt } := by
  obtain ⟨hmem, hid⟩ := PluginDb.mem_of_getInstance hrow
  have hfree : ¬ (row.containerId.isSome = true ∧ (s.plugin.instances.any fun other =>
      other.id ≠ instanceId ∧ other.containerId = row.containerId) = true) := by
    rintro ⟨hsome, hany⟩
    obtain ⟨other, hother, hboth⟩ := List.any_eq_true.mp hany
    obtain ⟨hne, hsame⟩ := of_decide_eq_true hboth
    exact hne ((hkeyed.containers row hmem other hother hsome hsame.symm).symm.trans hid)
  have hupdated : ∃ db, s.plugin.updateInstance instanceId [.expiresAt expiresAt] = .ok db := by
    unfold PluginDb.updateInstance
    rw [hrow]
    exact ⟨_, if_neg hfree⟩
  obtain ⟨db, hdb⟩ := hupdated
  obtain ⟨hkeyed', -, hrows⟩ := hkeyed.update hdb
  have hnew : { row with expiresAt := expiresAt } ∈ db.instances := by
    rw [hrows]
    exact List.mem_filterMap.mpr ⟨row, hmem, if_pos hid⟩
  have hget := hkeyed'.getInstance hnew
  rw [← hid]
  exact ⟨db, hdb ▸ (by rw [hid]), hget⟩

/-- An extension by the owner is granted when the exact remainder is within the threshold. -/
theorem wp_extendInstanceAt (hkeyed : s.plugin.Keyed)
    (hrow : s.plugin.getInstance instanceId = some row)
    (hcaller : s.plugin.resolveOwner caller = some row.owner) :
    wp (siteSemAt rpc now) (fun _ _ => True) (extendInstance caller instanceId)
      (fun out _ => (∃ expiresAt, out = .ok (.extended expiresAt)) ↔
        row.expiresAt - now ≤ timedelta (s.plugin.setting "extend_threshold_seconds" 600)) s := by
  obtain ⟨-, hid⟩ := PluginDb.mem_of_getInstance hrow
  have huser : ∃ user, s.plugin.currentUser caller = some user := by
    unfold PluginDb.resolveOwner at hcaller
    obtain ⟨user, huser, -⟩ := Option.bind_eq_some_iff.mp hcaller
    exact ⟨user, huser⟩
  obtain ⟨user, huser⟩ := huser
  apply wp_selectAt
  rw [huser, hcaller]
  apply wp_ownedInstanceAt hrow hcaller
  apply wp_settingOfAt
  apply wp_settingOfAt
  apply wp_utcnowAt
  dsimp only
  by_cases hlong : timedelta (s.plugin.setting "extend_threshold_seconds" 600) < row.expiresAt - now
  · rw [if_pos hlong]
    constructor
    · rintro ⟨expiresAt, h⟩
      cases h
    · exact fun h => absurd hlong (not_lt.mpr h)
  · rw [if_neg hlong]
    obtain ⟨db, hdb, hget⟩ := updateInstance_expiresAt hkeyed hrow
      (row.expiresAt + timedelta (s.plugin.setting "extend_seconds" 1800))
    apply wp_commitAt db
    · rw [PluginDb.applyAll_singleton, hid]
      exact hdb
    · apply wp_refreshInstanceAt (s := { s with plugin := db }) (by rw [hid]; exact hget)
      exact ⟨fun _ => not_lt.mp hlong, fun _ => ⟨_, rfl⟩⟩

/-- The remainder is at least a second and within the threshold, or beyond the threshold and then
    either less than a second or beyond the threshold by a second. -/
def ButtonExact (threshold remaining : Int) : Prop :=
  timedelta 1 ≤ remaining ∧ remaining ≤ timedelta threshold ∨
    timedelta threshold < remaining ∧
      (remaining < timedelta 1 ∨ timedelta (threshold + 1) ≤ remaining)

theorem wholeSeconds_of_nonneg {delta : Int} (h : 0 ≤ delta) :
    wholeSeconds delta = delta / 1000000 :=
  Int.tdiv_eq_ediv_of_nonneg h

theorem wholeSeconds_nonpos {delta : Int} (h : delta ≤ 0) : wholeSeconds delta ≤ 0 := by
  have hneg : wholeSeconds delta = -((-delta) / 1000000) := by
    rw [← Int.tdiv_eq_ediv_of_nonneg (by omega), Int.neg_tdiv, neg_neg]
    rfl
  omega

section Microseconds

variable {seconds remaining : Int}

theorem timedelta_le_iff : timedelta seconds ≤ remaining ↔ seconds * 1000000 ≤ remaining := Iff.rfl

theorem le_timedelta_iff : remaining ≤ timedelta seconds ↔ remaining ≤ seconds * 1000000 := Iff.rfl

theorem timedelta_lt_iff : timedelta seconds < remaining ↔ seconds * 1000000 < remaining := Iff.rfl

theorem lt_timedelta_iff : remaining < timedelta seconds ↔ remaining < seconds * 1000000 := Iff.rfl

theorem timedelta_mono {seconds' : Int} (h : seconds ≤ seconds') :
    timedelta seconds ≤ timedelta seconds' :=
  Int.mul_le_mul_of_nonneg_right h (by decide)

/-- The whole seconds lie within the threshold for almost a second more than the remainder. -/
theorem wholeSeconds_within : 0 < wholeSeconds remaining ∧ wholeSeconds remaining ≤ threshold ↔
    timedelta 1 ≤ remaining ∧ remaining < timedelta (threshold + 1) := by
  rw [timedelta_le_iff, lt_timedelta_iff]
  by_cases hover : 0 ≤ remaining
  · rw [wholeSeconds_of_nonneg hover]
    omega
  · have hnone := wholeSeconds_nonpos (not_le.mp hover).le
    omega

/-- The two comparisons agree on these remainders alone. -/
theorem buttonExact_iff : (0 < wholeSeconds remaining ∧ wholeSeconds remaining ≤ threshold ↔
    remaining ≤ timedelta threshold) ↔ ButtonExact threshold remaining := by
  rw [wholeSeconds_within]
  simp only [ButtonExact, timedelta_le_iff, le_timedelta_iff, timedelta_lt_iff, lt_timedelta_iff]
  omega

end Microseconds

/-- **The extend button tells the truth** about exactly these remainders. -/
theorem canExtend_truthful_iff (rpc : RpcSem) (s : Site) (instanceId : Nat) (row : EdoInstance)
    (caller : Option Int) (now : Timestamp) (view : InstanceView) (s₁ : Site)
    (out : Except PluginErr Response) (s₂ : Site) (hkeyed : s.plugin.Keyed)
    (hrow : s.plugin.getInstance instanceId = some row)
    (hcaller : s.plugin.resolveOwner caller = some row.owner)
    (hview : Ends (siteSemAt rpc now) (serializeInstance instanceId
      (s.plugin.setting "extend_threshold_seconds" 600)) s (.ok view) s₁)
    (hextend : Ends (siteSemAt rpc now) (extendInstance caller instanceId) s out s₂) :
    (view.canExtend = true ↔ ∃ expiresAt, out = .ok (.extended expiresAt)) ↔
      ButtonExact (s.plugin.setting "extend_threshold_seconds" 600) (row.expiresAt - now) := by
  obtain ⟨shown, heq, hshown⟩ := hview.of_wp (wp_serializeInstanceAt hrow)
  cases heq
  have hgranted := hextend.of_wp (wp_extendInstanceAt hkeyed hrow hcaller)
  rw [hgranted, hshown, decide_eq_true_iff]
  exact buttonExact_iff

/-- The calls that never block. -/
def SiteOp.Immediate : SiteOp → Prop
  | .select | .utcnow | .commit _ => True
  | _ => False

theorem exists_endsAt {α : Type} {p : Plugin α} (hp : CallsOnly SiteOp.Immediate p) :
    ∃ out s', Ends (siteSemAt rpc now) p s out s' := by
  apply hp.exists_ends
  intro s op hop
  cases op with
  | select => exact ⟨s.plugin, s, ⟨rfl, rfl⟩, trivial⟩
  | utcnow => exact ⟨now, s, rfl, rfl⟩
  | commit writes => exact ⟨_, _, ⟨rfl, rfl⟩, trivial⟩
  | _ => cases hop

theorem reading_immediate : Reading SiteOp.Immediate := ⟨trivial, trivial⟩

theorem exists_serializedAt (rpc : RpcSem) (instanceId : Nat) (threshold : Int) (now : Timestamp)
    (hrow : s.plugin.getInstance instanceId = some row) :
    ∃ view s', Ends (siteSemAt rpc now) (serializeInstance instanceId threshold) s (.ok view) s' ∧
      view.canExtend = decide (0 < wholeSeconds (row.expiresAt - now) ∧
        wholeSeconds (row.expiresAt - now) ≤ threshold) := by
  obtain ⟨out, s', hends⟩ : ∃ out s',
      Ends (siteSemAt rpc now) (serializeInstance instanceId threshold) s out s' :=
    exists_endsAt reading_immediate.serializeInstance
  obtain ⟨view, rfl, hshown⟩ := hends.of_wp (wp_serializeInstanceAt hrow)
  exact ⟨view, s', hends, hshown⟩

theorem exists_extendedAt (rpc : RpcSem) (s : Site) (caller : Option Int) (instanceId : Nat)
    (now : Timestamp) : ∃ out s', Ends (siteSemAt rpc now) (extendInstance caller instanceId) s out s' :=
  exists_endsAt (callsOnly_extendInstance reading_immediate fun _ _ => trivial)

end Button

/-- Alice's instance, which ends at this time. -/
def expiringSite (expiresAt : Timestamp) : Site :=
  { freshSite with plugin := { freshSite.plugin with
    instances := [⟨1, 1, ⟨"user", 1⟩, none, none, none, none, none, .running, expiresAt, none, none⟩]
    nextInstanceId := 2 } }

/-- With 100 seconds left the button is right. -/
theorem canExtend_truthful_iff_within : ∃ view s₁ out s₂,
    Ends (siteSemAt (Served DaemonEnv.default) 0) (serializeInstance 1 600)
      (expiringSite (timedelta 100)) (.ok view) s₁ ∧
    Ends (siteSemAt (Served DaemonEnv.default) 0) (extendInstance (some 1) 1)
      (expiringSite (timedelta 100)) out s₂ ∧
    (view.canExtend = true ↔ ∃ expiresAt, out = .ok (.extended expiresAt)) := by
  obtain ⟨view, s₁, hview, -⟩ := exists_serializedAt (s := expiringSite (timedelta 100))
    (Served DaemonEnv.default) 1 600 0 rfl
  obtain ⟨out, s₂, hextend⟩ := exists_extendedAt (Served DaemonEnv.default)
    (expiringSite (timedelta 100)) (some 1) 1 0
  refine ⟨view, s₁, out, s₂, hview, hextend, ?_⟩
  apply (canExtend_truthful_iff (Served DaemonEnv.default) (expiringSite (timedelta 100)) 1 _ (some 1) 0
    view s₁ out s₂ (by decide) rfl (by decide) hview hextend).mpr
  exact Or.inl ⟨by decide, by decide⟩

/-- With half a second more than the threshold the button is shown, and refuses. -/
theorem not_canExtend_truthful : ¬ ∀ (rpc : RpcSem) (s : Site) (instanceId : Nat) (row : EdoInstance)
    (caller : Option Int) (now : Timestamp) (view : InstanceView) (s₁ : Site)
    (out : Except PluginErr Response) (s₂ : Site), s.plugin.Keyed →
    s.plugin.getInstance instanceId = some row → s.plugin.resolveOwner caller = some row.owner →
    Ends (siteSemAt rpc now) (serializeInstance instanceId
      (s.plugin.setting "extend_threshold_seconds" 600)) s (.ok view) s₁ →
    Ends (siteSemAt rpc now) (extendInstance caller instanceId) s out s₂ →
    (view.canExtend = true ↔ ∃ expiresAt, out = .ok (.extended expiresAt)) := by
  intro hall
  have hkeyed : (expiringSite 600500000).plugin.Keyed := by decide
  have hcaller : (expiringSite 600500000).plugin.resolveOwner (some 1) = some ⟨"user", 1⟩ := by decide
  obtain ⟨view, s₁, hview, hshown⟩ := exists_serializedAt (s := expiringSite 600500000)
    (Served DaemonEnv.default) 1 600 0 rfl
  obtain ⟨out, s₂, hextend⟩ := exists_extendedAt (Served DaemonEnv.default)
    (expiringSite 600500000) (some 1) 1 0
  have hgranted := hextend.of_wp (wp_extendInstanceAt hkeyed rfl hcaller)
  have htruthful := hall _ _ 1 _ (some 1) 0 view s₁ out s₂ hkeyed rfl hcaller hview hextend
  have hshort := hgranted.mp (htruthful.mp (hshown.trans (by decide)))
  revert hshort
  decide

/-! ## How much time a request knows of -/

/-- `int(challenge.ttl_seconds or _setting("container_ttl_seconds", 3600))` -/
def PluginDb.spawnTtl (db : PluginDb) (challengeId : Nat) : Int :=
  match db.getChallenge challengeId with
  | some challenge =>
    let ttl := orDefault challenge.ttlSeconds 0
    if ttl = 0 then db.setting "container_ttl_seconds" 3600 else ttl
  | none => db.setting "container_ttl_seconds" 3600

/-- The most that an extension leaves: the threshold, and what it adds. -/
def PluginDb.extendedTtl (db : PluginDb) : Int :=
  db.setting "extend_threshold_seconds" 600 + db.setting "extend_seconds" 1800

inductive LifetimePhase where
  | unread
  /-- It has last read this time. -/
  | read (now : Timestamp)
deriving DecidableEq, Repr

namespace LifetimePhase

def next (phase : LifetimePhase) : (op : SiteOp) → op.Res → LifetimePhase
  | .utcnow, now => .read now
  | _, _ => phase

/-- What a request may commit, measured from the time it has read. -/
def admits (db₀ : PluginDb) (phase : LifetimePhase) : SiteOp → Prop
  | .select | .utcnow | .rpc _ => True
  | .insertInstance challengeId _ expiresAt => ∃ now, phase = .read now ∧
      expiresAt ≤ now + timedelta (db₀.spawnTtl challengeId)
  | .commit writes =>
    (∃ now instanceId expiresAt, phase = .read now ∧
      writes = [.updateInstance instanceId [.expiresAt expiresAt]] ∧
      expiresAt ≤ now + timedelta db₀.extendedTtl) ∨
    ∃ instanceId, writes = [.deleteInstance instanceId] ∨
      ∃ reply, writes = [.updateInstance instanceId (spawnColumns reply)]
  | _ => False

def expected (db₀ : PluginDb) (_ : LifetimePhase) : (op : SiteOp) → op.Res → Prop
  | .select, db => db₀.SameButInstances db
  | _, _ => True

end LifetimePhase

section Lifetimes

variable {db₀ : PluginDb} {α : Type} {caller : Option Int} {owner : Owner}
  {instanceId challengeId : Nat} {phase : LifetimePhase}

end Lifetimes

/-! ## What every call keeps -/

/-- How long the instance was to live when it was spawned, where `ttl₀` has the rows that are there at
    the start. -/
def ttlAtSpawn (db₀ : PluginDb) (ttl₀ : Nat → Int) (row : EdoInstance) : Int :=
  if row.id < db₀.nextInstanceId then ttl₀ row.id else db₀.spawnTtl row.challengeId

def lifetimeLimit (db₀ : PluginDb) (ttl₀ : Nat → Int) (row : EdoInstance) : Int :=
  max (ttlAtSpawn db₀ ttl₀ row) db₀.extendedTtl

structure Lifetimes (db₀ : PluginDb) (ttl₀ : Nat → Int) (w : TimedSite)
    (phases : List LifetimePhase) : Prop where
  same : db₀.SameButInstances w.site.plugin
  keyed : w.site.plugin.Keyed
  nextId : db₀.nextInstanceId ≤ w.site.plugin.nextInstanceId
  past : ∀ (i : Nat) (now : Timestamp), phases[i]? = some (.read now) → now ≤ w.clock
  bounded : ∀ row ∈ w.site.plugin.instances,
    row.expiresAt ≤ w.clock + timedelta (lifetimeLimit db₀ ttl₀ row)

namespace TimedSite

variable {w : TimedSite} {op : SiteOp} {res : op.Res}

@[simp] theorem note_site : (w.note op res).site = w.site := by
  unfold note
  split <;> rfl

@[simp] theorem note_clock : (w.note op res).clock = w.clock := by
  unfold note
  split <;> rfl

end TimedSite

section Steps

variable {db₀ : PluginDb} {ttl₀ : Nat → Int} {w w' : TimedSite} {phases : List LifetimePhase}
  {tid : Nat} {phase phase' : LifetimePhase}

/-- The limit of a row hangs on what no update changes. -/
theorem lifetimeLimit_eq {row row' : EdoInstance} (hid : row'.id = row.id)
    (hchallenge : row'.challengeId = row.challengeId) :
    lifetimeLimit db₀ ttl₀ row' = lifetimeLimit db₀ ttl₀ row := by
  unfold lifetimeLimit ttlAtSpawn
  rw [hid, hchallenge]

/-- What a step has to keep, and what its own request may have read. -/
theorem Lifetimes.set_phase (h : Lifetimes db₀ ttl₀ w phases) (hget : phases[tid]? = some phase)
    (hclock : w.clock ≤ w'.clock) (hsame : db₀.SameButInstances w'.site.plugin)
    (hkeyed : w'.site.plugin.Keyed) (hnext : db₀.nextInstanceId ≤ w'.site.plugin.nextInstanceId)
    (hpast : ∀ now, phase' = .read now → now ≤ w'.clock)
    (hbounded : ∀ row ∈ w'.site.plugin.instances,
      row.expiresAt ≤ w'.clock + timedelta (lifetimeLimit db₀ ttl₀ row)) :
    Lifetimes db₀ ttl₀ w' (phases.set tid phase') := by
  refine ⟨hsame, hkeyed, hnext, ?_, hbounded⟩
  intro i now hi
  rcases (getElem?_set_iff hget).mp hi with ⟨-, hphase⟩ | ⟨-, hold⟩
  · exact hpast now hphase.symm
  · exact (h.past i now hold).trans hclock

/-- A step that leaves the tables alone. -/
theorem Lifetimes.same_tables (h : Lifetimes db₀ ttl₀ w phases) (hget : phases[tid]? = some phase)
    (hclock : w.clock ≤ w'.clock) (hplugin : w'.site.plugin = w.site.plugin)
    (hpast : ∀ now, phase' = .read now → now ≤ w'.clock) :
    Lifetimes db₀ ttl₀ w' (phases.set tid phase') := by
  apply h.set_phase hget hclock
  · rw [hplugin]
    exact h.same
  · rw [hplugin]
    exact h.keyed
  · rw [hplugin]
    exact h.nextId
  · exact hpast
  · rw [hplugin]
    intro row hrow
    have hbefore := h.bounded row hrow
    linarith

theorem onInstances_of_admits {writes : List Write} (hadmits : phase.admits db₀ (.commit writes)) :
    ∀ write ∈ writes, write.OnInstances := by
  rcases hadmits with ⟨_, _, _, _, rfl, _⟩ | ⟨_, rfl | ⟨_, rfl⟩⟩
  all_goals
    intro write hwrite
    rw [List.mem_singleton.mp hwrite]
    trivial

theorem rowAfter_singleton {write : Write} {row : EdoInstance} :
    rowAfter [write] row = write.onRow row := by
  simp [rowAfter]

theorem onRow_updateInstance {instanceId : Nat} {columns : List InstanceColumn}
    {row row' : EdoInstance} (h : (Write.updateInstance instanceId columns).onRow row = some row') :
    row' = row ∨ row' = row.update columns := by
  simp only [Write.onRow] at h
  split at h
  · exact Or.inr (Option.some.inj h).symm
  · exact Or.inl (Option.some.inj h).symm

/-- A commit leaves the time of a row, or moves it within the limit of what the request has read. -/
theorem rowAfter_lifetime {writes : List Write} {row row' : EdoInstance}
    (hadmits : phase.admits db₀ (.commit writes)) (h : rowAfter writes row = some row') :
    row'.challengeId = row.challengeId ∧ (row'.expiresAt = row.expiresAt ∨
      ∃ now, phase = .read now ∧ row'.expiresAt ≤ now + timedelta db₀.extendedTtl) := by
  rcases hadmits with ⟨now, instanceId, expiresAt, hphase, rfl, hle⟩ | ⟨instanceId, rfl | ⟨reply, rfl⟩⟩
  · rw [rowAfter_singleton] at h
    rcases onRow_updateInstance h with rfl | rfl
    · exact ⟨rfl, Or.inl rfl⟩
    · exact ⟨rfl, Or.inr ⟨now, hphase, hle⟩⟩
  · rw [rowAfter_singleton] at h
    simp only [Write.onRow] at h
    split at h
    · cases h
    · cases h
      exact ⟨rfl, Or.inl rfl⟩
  · rw [rowAfter_singleton] at h
    rcases onRow_updateInstance h with rfl | rfl
    · exact ⟨rfl, Or.inl rfl⟩
    · exact ⟨rfl, Or.inl rfl⟩

theorem Lifetimes.commit {writes : List Write} {db : PluginDb}
    (h : Lifetimes db₀ ttl₀ w phases) (hget : phases[tid]? = some phase) (hclock : w.clock ≤ w'.clock)
    (hadmits : phase.admits db₀ (.commit writes)) (happly : w.site.plugin.applyAll writes = .ok db)
    (hplugin : w'.site.plugin = db) : Lifetimes db₀ ttl₀ w' (phases.set tid phase) := by
  subst hplugin
  have hpast : ∀ now, phase = .read now → now ≤ w.clock := by
    rintro now rfl
    exact h.past tid now hget
  obtain ⟨hkeyed, hnext, -⟩ := h.keyed.applyAll happly
  apply h.set_phase hget hclock (h.same.applyAll (onInstances_of_admits hadmits) happly) hkeyed
  · rw [hnext]
    exact h.nextId
  · exact fun now hphase => (hpast now hphase).trans hclock
  · intro row' hrow'
    obtain ⟨row, hrow, hafter⟩ := (h.keyed.mem_applyAll happly).mp hrow'
    obtain ⟨hchallenge, htime⟩ := rowAfter_lifetime hadmits hafter
    rw [lifetimeLimit_eq (Write.rowAfter_id hafter) hchallenge]
    rcases htime with hsame | ⟨now, hphase, hle⟩
    · have hbefore := h.bounded row hrow
      linarith
    · have hnow := hpast now hphase
      have hlimit : timedelta db₀.extendedTtl ≤ timedelta (lifetimeLimit db₀ ttl₀ row) :=
        timedelta_mono (le_max_right _ _)
      linarith

/-- The rows after an insertion. -/
theorem mem_insertInstance {db db' : PluginDb} {challengeId id : Nat} {owner : Owner}
    {expiresAt : Timestamp} {row : EdoInstance}
    (h : db.insertInstance challengeId owner expiresAt = .ok (id, db')) (hrow : row ∈ db'.instances) :
    row ∈ db.instances ∨
      row.id = db.nextInstanceId ∧ row.challengeId = challengeId ∧ row.expiresAt = expiresAt := by
  unfold PluginDb.insertInstance at h
  split at h
  · cases h
  · cases h
    rcases List.mem_append.mp hrow with hold | hnew
    · exact Or.inl hold
    · rw [List.mem_singleton.mp hnew]
      exact Or.inr ⟨rfl, rfl, rfl⟩

/-- A new instance has the time of a spawn. -/
theorem Lifetimes.insert {challengeId id : Nat} {owner : Owner} {expiresAt : Timestamp} {db : PluginDb}
    (h : Lifetimes db₀ ttl₀ w phases) (hget : phases[tid]? = some phase) (hclock : w.clock ≤ w'.clock)
    (hadmits : phase.admits db₀ (.insertInstance challengeId owner expiresAt))
    (hinsert : w.site.plugin.insertInstance challengeId owner expiresAt = .ok (id, db))
    (hplugin : w'.site.plugin = db) : Lifetimes db₀ ttl₀ w' (phases.set tid phase) := by
  subst hplugin
  obtain ⟨now, rfl, hle⟩ := hadmits
  have hnow : now ≤ w.clock := h.past tid now hget
  apply h.set_phase hget hclock (h.same.insertInstance hinsert) (h.keyed.insertInstance hinsert)
  · obtain ⟨-, -, row, -, -, -, -, -, hdb⟩ := PluginDb.insertInstance_eq hinsert
    rw [hdb]
    exact h.nextId.trans (Nat.le_succ _)
  · intro read hread
    cases hread
    exact hnow.trans hclock
  · intro row hrow
    rcases mem_insertInstance hinsert hrow with hold | ⟨hid, hchallenge, htime⟩
    · have hbefore := h.bounded row hold
      linarith
    · have hnew : ttlAtSpawn db₀ ttl₀ row = db₀.spawnTtl challengeId := by
        unfold ttlAtSpawn
        rw [hid, hchallenge, if_neg (Nat.not_lt.mpr h.nextId)]
      have hlimit : timedelta (db₀.spawnTtl challengeId) ≤
          timedelta (lifetimeLimit db₀ ttl₀ row) := by
        rw [← hnew]
        exact timedelta_mono (le_max_left _ _)
      rw [htime]
      linarith

/-- **Every call keeps the bound** on the time that is left. -/
theorem Lifetimes.step {rpc : RpcSem} {op : SiteOp} {res : op.Res} (h : Lifetimes db₀ ttl₀ w phases)
    (hget : phases[tid]? = some phase) (hadmits : phase.admits db₀ op)
    (hsem : timedSem rpc w op res w') :
    phase.expected db₀ op res ∧ Lifetimes db₀ ttl₀ w' (phases.set tid (phase.next op res)) := by
  obtain ⟨site, clock, hclock, hsite, htime, rfl⟩ := hsem
  have hpast : ∀ now, phase = .read now → now ≤ clock := by
    rintro now rfl
    exact (h.past tid now hget).trans hclock
  cases op with
  | select =>
    obtain ⟨rfl, rfl⟩ := hsite
    exact ⟨h.same, h.same_tables hget hclock rfl hpast⟩
  | utcnow =>
    cases hsite
    cases htime
    refine ⟨trivial, h.same_tables hget hclock rfl ?_⟩
    intro now hread
    cases hread
    exact le_rfl
  | rpc request =>
    refine ⟨trivial, h.same_tables hget (by simpa using hclock) ?_ ?_⟩
    · rw [TimedSite.note_site, hsite.2]
    · rw [TimedSite.note_clock]
      exact hpast
  | insertInstance challengeId owner expiresAt =>
    obtain ⟨rfl, rfl⟩ := hsite
    refine ⟨trivial, ?_⟩
    cases hinsert : w.site.plugin.insertInstance challengeId owner expiresAt with
    | ok result =>
      apply h.insert hget hclock hadmits hinsert
      simp [TimedSite.note, PluginDb.commitInstance, hinsert]
    | error err =>
      apply h.same_tables hget hclock _ hpast
      simp [TimedSite.note, PluginDb.commitInstance, hinsert]
  | commit writes =>
    obtain ⟨rfl, rfl⟩ := hsite
    refine ⟨trivial, ?_⟩
    cases happly : w.site.plugin.applyAll writes with
    | ok db =>
      apply h.commit hget _ hadmits happly
      · simp [PluginDb.commit, happly]
      · simpa using hclock
    | error err =>
      apply h.same_tables hget
      · simpa using hclock
      · simp [PluginDb.commit, happly]
      · rw [TimedSite.note_clock]
        exact hpast
  | flush _ | rateLimit _ _ _ => cases hadmits

end Steps

/-! ## Runs -/

inductive LifetimeRequest where
  | spawn (caller : Option Int) (challengeId : Nat)
  | extend (caller : Option Int) (instanceId : Nat)
deriving DecidableEq, Repr

def LifetimeRequest.prog : LifetimeRequest → Plugin Unit
  | .spawn caller challengeId => unattended (UserRoutes.spawnInstance caller challengeId)
  | .extend caller instanceId => unattended (extendInstance caller instanceId)

end EdoPlugin
