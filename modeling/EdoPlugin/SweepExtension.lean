import EdoPlugin.RouteCalls
import EdoPlugin.RowRemoval
import EdoPlugin.SiteThreads

/-!
# Extensions during a sweep

`_sweep_expired` lists the expired rows once, releases their containers one by one, and commits at the
end; an extension that commits meanwhile goes unnoticed.  To speak of what happens before an expiry,
each call of the site takes place at a time, and the site keeps a history of the extensions that were
granted and of what the sweep released and deleted.
-/

namespace EdoPlugin

open Interaction

/-! ## Time and history -/

structure TimedSite where
  site : Site
  clock : Timestamp
  /-- Instances, and the ends of their time that were granted. -/
  grants : List (Nat × Timestamp)
  releases : List (Timestamp × ContainerId)
  deletions : List (Timestamp × Nat)

/-- The rows that a session deletes one by one. -/
def deletedIds (writes : List Write) : List Nat :=
  writes.filterMap fun write => match write with
    | .deleteInstance instanceId => some instanceId
    | _ => none

/-- The extensions that a session makes. -/
def extensionsOf (writes : List Write) : List (Nat × Timestamp) :=
  writes.filterMap fun write => match write with
    | .updateInstance instanceId [.expiresAt expiresAt] => some (instanceId, expiresAt)
    | _ => none

namespace TimedSite

/-- What the history keeps of a call. -/
def note (w : TimedSite) : (op : SiteOp) → op.Res → TimedSite
  | .commit writes, .ok _ => { w with
      grants := extensionsOf writes ++ w.grants
      deletions := (deletedIds writes).map (fun id => (w.clock, id)) ++ w.deletions }
  | .rpc (.containerReleaseInstance containerId), _ =>
    { w with releases := (w.clock, containerId) :: w.releases }
  | _, _ => w

end TimedSite

/-- What the clock shows. -/
def ShowsTime (clock : Timestamp) : (op : SiteOp) → op.Res → Prop
  | .utcnow, now => now = clock
  | _, _ => True

/-- A call takes place at a time no earlier than the call before it. -/
def timedSem (rpc : RpcSem) : Sem siteEffect TimedSite := fun w op res w' =>
  ∃ site clock, w.clock ≤ clock ∧ siteSem rpc w.site op res site ∧ ShowsTime clock op res ∧
    w' = { w with site := site, clock := clock }.note op res

/-! ## How far the sweep has come -/

inductive SweepPhase where
  | ready
  | woken (now : Timestamp)
  /-- It holds the rows that had expired by then. -/
  | sweeping (now : Timestamp) (listed : List EdoInstance)
  | finished
  /-- Of an extension. -/
  | extending
deriving DecidableEq, Repr

namespace SweepPhase

def next (phase : SweepPhase) : (op : SiteOp) → op.Res → SweepPhase
  | .utcnow, now =>
    match phase with
    | .ready => .woken now
    | _ => phase
  | .select, db =>
    match phase with
    | .woken now => .sweeping now (Scheduler.expiredRows db now)
    | _ => phase
  | .commit _, _ =>
    match phase with
    | .sweeping .. => .finished
    | _ => phase
  | _, _ => phase

end SweepPhase

/-- What the sweep writes about the rows it holds. -/
def SweepWrite (listed : List EdoInstance) : Write → Prop
  | .deleteInstance instanceId => ∃ row ∈ listed, row.id = instanceId
  | .updateInstance instanceId columns => (∃ row ∈ listed, row.id = instanceId) ∧
      ∃ text, columns = [.status .error, .errorMessage text]
  | _ => False

def SweepPhase.admits (phase : SweepPhase) : SiteOp → Prop
  | .utcnow | .select => True
  | .rpc (.containerReleaseInstance containerId) => ∃ now listed, phase = .sweeping now listed ∧
      ∃ row ∈ listed, row.containerId = some containerId
  | .commit writes =>
    (∃ now listed, phase = .sweeping now listed ∧ ∀ write ∈ writes, SweepWrite listed write) ∨
      phase = .extending ∧ ∃ instanceId expiresAt,
        writes = [.updateInstance instanceId [.expiresAt expiresAt]]
  | _ => False

section Conformance

variable {α : Type} {now : Timestamp} {listed : List EdoInstance}

abbrev Sweeps (p : Plugin α) (Q : Except PluginErr α → SweepPhase → Prop) (phase : SweepPhase) :
    Prop :=
  PluginFollows (fun _ _ _ => True) SweepPhase.admits SweepPhase.next p Q phase

theorem sweeps_releaseContainer {row : EdoInstance} {f : Except DaemonError Unit → Plugin α}
    {Q : Except PluginErr α → SweepPhase → Prop} (hrow : row ∈ listed)
    (h : ∀ released, Sweeps (f released) Q (.sweeping now listed)) :
    Sweeps (UserRoutes.releaseContainer row >>= f) Q (.sweeping now listed) := by
  unfold UserRoutes.releaseContainer
  cases hcontainer : row.containerId with
  | none => exact h (.ok ())
  | some containerId =>
    apply wp_bind.mpr
    apply Conforms.perform ⟨now, listed, rfl, row, hrow, hcontainer⟩
    intro answer _
    cases answer with
    | ok reply => exact h _
    | error err => exact h _

/-- The loop releases, and writes about, the rows it holds. -/
theorem sweeps_sweepEach {rows : List EdoInstance} (hrows : ∀ row ∈ rows, row ∈ listed) :
    Sweeps (Scheduler.sweepEach rows) (fun out φ => φ = .sweeping now listed ∧
      ∃ writes, out = .ok writes ∧ ∀ write ∈ writes, SweepWrite listed write)
      (.sweeping now listed) := by
  induction rows with
  | nil => exact ⟨rfl, [], rfl, fun _ h => nomatch h⟩
  | cons row rows ih =>
    have hrow := hrows row List.mem_cons_self
    apply sweeps_releaseContainer hrow
    intro released
    apply Conforms.andThen (ih fun other hother => hrows other (List.mem_cons_of_mem row hother))
    · rintro writes φ ⟨rfl, _, ⟨⟩, hwrites⟩
      refine ⟨rfl, _, rfl, fun write hwrite => ?_⟩
      rcases List.mem_cons.mp hwrite with rfl | hmem
      · cases released with
        | ok _ => exact ⟨row, hrow, rfl⟩
        | error err => exact ⟨⟨row, hrow, rfl⟩, _, rfl⟩
      · exact hwrites write hmem
    · rintro err φ ⟨-, _, ⟨⟩, -⟩

theorem sweeps_sweepExpired : Sweeps Scheduler.sweepExpired (fun _ _ => True) .ready := by
  apply Conforms.perform trivial
  intro now _
  apply follows_select trivial
  intro db _
  apply Conforms.ite
  · trivial
  · apply Conforms.andThen (sweeps_sweepEach fun _ hrow => hrow)
    · rintro writes φ ⟨rfl, _, ⟨⟩, hwrites⟩
      apply Conforms.perform (Or.inl ⟨now, _, rfl, hwrites⟩)
      intro done _
      cases done with
      | ok _ => trivial
      | error err => trivial
    · rintro err φ ⟨-, _, ⟨⟩, -⟩

theorem sweeps_extendInstance {caller : Option Int} {instanceId : Nat} :
    Sweeps (UserRoutes.extendInstance caller instanceId) (fun _ _ => True) .extending := by
  have hcalls : CallsOnly (E := siteEffect) (fun op => SweepPhase.admits .extending op ∧
      ∀ res, SweepPhase.next .extending op res = .extending)
      (UserRoutes.extendInstance caller instanceId) := by
    apply callsOnly_extendInstance
    · exact ⟨⟨trivial, fun _ => rfl⟩, ⟨trivial, fun _ => rfl⟩⟩
    · exact fun id expiresAt => ⟨Or.inr ⟨rfl, id, expiresAt, rfl⟩, fun _ => rfl⟩
  apply wp_mono (Conforms.of_callsOnly hcalls (fun _ h => h.1) fun _ _ h => h.2 _)
  exact fun _ _ _ => trivial

end Conformance

/-! ## The invariant -/

/-- An extension does not lower the end of an instance's time, and where the sweep holds the row, it
    grants nothing beyond the moment of the listing. -/
def ExtendsUnswept (w : TimedSite) (phases : List SweepPhase) (event : Event siteEffect) : Prop :=
  match event.op with
  | .commit [.updateInstance instanceId [.expiresAt expiresAt]] =>
    (∀ row, w.site.plugin.getInstance instanceId = some row → row.expiresAt ≤ expiresAt) ∧
      ∀ now listed, phases[0]? = some (.sweeping now listed) →
        (∃ row ∈ listed, row.id = instanceId) → expiresAt ≤ now
  | _ => True

/-- What the position of the sweep says about the history. -/
def SweepPhase.Explains (rows₀ : List EdoInstance) (w : TimedSite) : SweepPhase → Prop
  | .ready => w.releases = []
  | .woken now => now ≤ w.clock ∧ w.releases = []
  | .sweeping now listed => now ≤ w.clock ∧
      (∀ row ∈ listed, ∃ row₀ ∈ rows₀, row₀.id = row.id ∧ row₀.containerId = row.containerId) ∧
      (∀ grant ∈ w.grants, (∃ row ∈ listed, row.id = grant.1) → grant.2 ≤ now) ∧
      ∀ release ∈ w.releases, now ≤ release.1 ∧
        ∃ row ∈ listed, row.containerId = some release.2
  | .finished => True
  | .extending => False

structure Honouring (rows₀ : List EdoInstance) (w : TimedSite) (phases : List SweepPhase) : Prop where
  keyed : w.site.plugin.Keyed
  rows : ∀ row ∈ w.site.plugin.instances, ∃ row₀ ∈ rows₀,
    row₀.id = row.id ∧ row₀.containerId = row.containerId
  granted : ∀ grant ∈ w.grants, ∀ row ∈ w.site.plugin.instances, row.id = grant.1 →
    grant.2 ≤ row.expiresAt
  deleted : ∀ deletion ∈ w.deletions, (∀ row ∈ w.site.plugin.instances, row.id ≠ deletion.2) ∧
    ∀ grant ∈ w.grants, grant.1 = deletion.2 → grant.2 ≤ deletion.1
  sweep : ∀ phase, phases[0]? = some phase → phase.Explains rows₀ w
  others : ∀ (i : Nat) (phase : SweepPhase), phases[i]? = some phase → i ≠ 0 → phase = .extending

section Rows

variable {writes : List Write} {listed : List EdoInstance} {row row' : EdoInstance}

theorem mem_deletedIds {instanceId : Nat} :
    instanceId ∈ deletedIds writes ↔ Write.deleteInstance instanceId ∈ writes := by
  simp only [deletedIds, List.mem_filterMap]
  constructor
  · rintro ⟨write, hwrite, heq⟩
    split at heq <;> cases heq
    exact hwrite
  · exact fun hmem => ⟨_, hmem, rfl⟩

/-- What a write of the sweep leaves of a row. -/
theorem onRow_sweep {write : Write} (hwrite : SweepWrite listed write)
    (h : write.onRow row = some row') : write ≠ .deleteInstance row.id ∧
      row'.containerId = row.containerId ∧ row'.expiresAt = row.expiresAt := by
  cases write with
  | deleteInstance instanceId =>
    simp only [Write.onRow] at h
    split at h <;> cases h
    rename_i hid
    exact ⟨fun heq => hid (Write.deleteInstance.inj heq).symm, rfl, rfl⟩
  | updateInstance instanceId columns =>
    obtain ⟨-, text, rfl⟩ := hwrite
    simp only [Write.onRow] at h
    split at h <;> cases h
    · exact ⟨fun heq => (by cases heq), rfl, rfl⟩
    · exact ⟨fun heq => (by cases heq), rfl, rfl⟩
  | _ => cases hwrite

theorem rowAfter_sweep (hwrites : ∀ write ∈ writes, SweepWrite listed write)
    (h : rowAfter writes row = some row') : row.id ∉ deletedIds writes ∧
      row'.containerId = row.containerId ∧ row'.expiresAt = row.expiresAt := by
  rw [mem_deletedIds]
  induction writes generalizing row with
  | nil =>
    cases h
    exact ⟨nofun, rfl, rfl⟩
  | cons write writes ih =>
    obtain ⟨row₁, hwrite, hrest⟩ := Option.bind_eq_some_iff.mp h
    obtain ⟨hkept, hcontainer, htime⟩ := onRow_sweep (hwrites write List.mem_cons_self) hwrite
    obtain ⟨hnot, hcontainer', htime'⟩ :=
      ih (fun other hother => hwrites other (List.mem_cons_of_mem _ hother)) hrest
    rw [Write.onRow_id hwrite] at hnot
    refine ⟨?_, hcontainer'.trans hcontainer, htime'.trans htime⟩
    intro hmem
    rcases List.mem_cons.mp hmem with heq | hmem
    · exact hkept heq.symm
    · exact hnot hmem

/-- The sweep grants nothing. -/
theorem extensionsOf_sweep (hwrites : ∀ write ∈ writes, SweepWrite listed write) :
    extensionsOf writes = [] := by
  apply List.filterMap_eq_nil_iff.mpr
  intro write hwrite
  have hthis := hwrites write hwrite
  cases write with
  | updateInstance instanceId columns =>
    obtain ⟨-, text, rfl⟩ := hthis
    rfl
  | _ => rfl

end Rows

variable {rows₀ : List EdoInstance} {w w' : TimedSite} {phases : List SweepPhase} {tid : Nat}
  {phase : SweepPhase}

theorem SweepPhase.Explains.later (h : phase.Explains rows₀ w) (hclock : w.clock ≤ w'.clock)
    (hgrants : w'.grants = w.grants) (hreleases : w'.releases = w.releases) :
    phase.Explains rows₀ w' := by
  cases phase with
  | ready => exact hreleases.trans h
  | woken now => exact ⟨h.1.trans hclock, hreleases.trans h.2⟩
  | sweeping now listed =>
    obtain ⟨hnow, hlisted, hgranted, hreleased⟩ := h
    refine ⟨hnow.trans hclock, hlisted, ?_, ?_⟩
    · rw [hgrants]
      exact hgranted
    · rw [hreleases]
      exact hreleased
  | finished => trivial
  | extending => exact h

namespace Honouring

/-- A step of the sweep that writes nothing. -/
theorem sweepOn (h : Honouring rows₀ w phases) (hget : phases[0]? = some phase)
    {φ : SweepPhase} (hplugin : w'.site.plugin = w.site.plugin) (hgrants : w'.grants = w.grants)
    (hdeletions : w'.deletions = w.deletions) (hphase : φ.Explains rows₀ w') :
    Honouring rows₀ w' (phases.set 0 φ) := by
  constructor
  · rw [hplugin]
    exact h.keyed
  · rw [hplugin]
    exact h.rows
  · rw [hplugin, hgrants]
    exact h.granted
  · rw [hplugin, hgrants, hdeletions]
    exact h.deleted
  · intro other hother
    rcases (getElem?_set_iff hget).mp hother with ⟨-, rfl⟩ | ⟨hne, -⟩
    · exact hphase
    · exact absurd rfl hne
  · intro i other hother hi
    rcases (getElem?_set_iff hget).mp hother with ⟨rfl, -⟩ | ⟨-, hold⟩
    · exact absurd rfl hi
    · exact h.others i other hold hi

/-- A step, of anybody, after which only the time is another. -/
theorem wait (h : Honouring rows₀ w phases) (hget : phases[tid]? = some phase)
    (hplugin : w'.site.plugin = w.site.plugin) (hclock : w.clock ≤ w'.clock)
    (hgrants : w'.grants = w.grants) (hreleases : w'.releases = w.releases)
    (hdeletions : w'.deletions = w.deletions) : Honouring rows₀ w' (phases.set tid phase) := by
  have hset : phases.set tid phase = phases := by
    obtain ⟨hlt, rfl⟩ := List.getElem?_eq_some_iff.mp hget
    exact List.set_getElem_self hlt
  rw [hset]
  constructor
  · rw [hplugin]
    exact h.keyed
  · rw [hplugin]
    exact h.rows
  · rw [hplugin, hgrants]
    exact h.granted
  · rw [hplugin, hgrants, hdeletions]
    exact h.deleted
  · exact fun other hother => (h.sweep other hother).later hclock hgrants hreleases
  · exact h.others

/-- Only the sweep is in a phase of the sweep. -/
theorem eq_zero (h : Honouring rows₀ w phases) (hget : phases[tid]? = some phase)
    (hphase : phase ≠ .extending) : tid = 0 := by
  by_contra hne
  exact hphase (h.others tid phase hget hne)

/-- The sweep lists what has expired. -/
theorem list (h : Honouring rows₀ w phases) {now : Timestamp} (hget : phases[0]? = some (.woken now))
    (hplugin : w'.site.plugin = w.site.plugin) (hclock : w.clock ≤ w'.clock)
    (hgrants : w'.grants = w.grants) (hreleases : w'.releases = w.releases)
    (hdeletions : w'.deletions = w.deletions) :
    Honouring rows₀ w' (phases.set 0 (.sweeping now (Scheduler.expiredRows w.site.plugin now))) := by
  obtain ⟨hnow, hnone⟩ := h.sweep _ hget
  apply h.sweepOn hget hplugin hgrants hdeletions
  refine ⟨hnow.trans hclock, ?_, ?_, ?_⟩
  · exact fun row hrow => h.rows row (List.mem_of_mem_filter hrow)
  · rintro grant hgrant ⟨row, hrow, hid⟩
    rw [hgrants] at hgrant
    obtain ⟨hmem, hexpired⟩ := List.mem_filter.mp hrow
    exact (h.granted grant hgrant row hmem hid).trans (of_decide_eq_true hexpired).1
  · rw [hreleases, hnone]
    exact fun _ hrelease => nomatch hrelease

/-- The sweep releases a container it holds. -/
theorem release (h : Honouring rows₀ w phases) {now : Timestamp} {listed : List EdoInstance}
    {row : EdoInstance} {containerId : ContainerId} {clock : Timestamp} {site : Site}
    (hget : phases[0]? = some (.sweeping now listed)) (hrow : row ∈ listed)
    (hcontainer : row.containerId = some containerId) (hplugin : site.plugin = w.site.plugin)
    (hclock : w.clock ≤ clock) :
    Honouring rows₀ { w with site := site, clock := clock, releases := (clock, containerId) :: w.releases }
      (phases.set 0 (.sweeping now listed)) := by
  obtain ⟨hnow, hlisted, hgranted, hreleased⟩ := h.sweep _ hget
  refine h.sweepOn hget hplugin rfl rfl ⟨hnow.trans hclock, hlisted, hgranted, ?_⟩
  intro release hrelease
  rcases List.mem_cons.mp hrelease with rfl | hold
  · exact ⟨hnow.trans hclock, row, hrow, hcontainer⟩
  · exact hreleased release hold

/-- The sweep commits. -/
theorem finish (h : Honouring rows₀ w phases) {now : Timestamp} {listed : List EdoInstance}
    {writes : List Write} {db : PluginDb} {clock : Timestamp}
    (hget : phases[0]? = some (.sweeping now listed)) (hclock : w.clock ≤ clock)
    (hwrites : ∀ write ∈ writes, SweepWrite listed write)
    (happly : w.site.plugin.applyAll writes = .ok db) :
    Honouring rows₀ { w with
      site := { w.site with plugin := db }, clock := clock
      deletions := (deletedIds writes).map (fun id => (clock, id)) ++ w.deletions }
      (phases.set 0 .finished) := by
  obtain ⟨hnow, hlisted, hgranted, hreleased⟩ := h.sweep _ hget
  have hrow : ∀ row' ∈ db.instances, ∃ row ∈ w.site.plugin.instances, row'.id = row.id ∧
      row.id ∉ deletedIds writes ∧ row'.containerId = row.containerId ∧
      row'.expiresAt = row.expiresAt := by
    intro row' hrow'
    obtain ⟨row, hrow, hafter⟩ := (h.keyed.mem_applyAll happly).mp hrow'
    exact ⟨row, hrow, Write.rowAfter_id hafter, rowAfter_sweep hwrites hafter⟩
  constructor
  · exact (h.keyed.applyAll happly).1
  · intro row' hrow'
    obtain ⟨row, hmem, hid, -, hcontainer, -⟩ := hrow row' hrow'
    rw [hid, hcontainer]
    exact h.rows row hmem
  · intro grant hgrant row' hrow' hid'
    obtain ⟨row, hmem, hid, -, -, htime⟩ := hrow row' hrow'
    rw [htime]
    exact h.granted grant hgrant row hmem (hid.symm.trans hid')
  · intro deletion hdeletion
    rcases List.mem_append.mp hdeletion with hnew | hold
    · obtain ⟨instanceId, hmem, rfl⟩ := List.mem_map.mp hnew
      constructor
      · rintro row' hrow' rfl
        obtain ⟨row, -, hid, hkept, -⟩ := hrow row' hrow'
        rw [hid] at hmem
        exact hkept hmem
      · intro grant hgrant hid
        have hlist : SweepWrite listed (.deleteInstance grant.1) :=
          hid ▸ hwrites _ (mem_deletedIds.mp hmem)
        exact (hgranted grant hgrant hlist).trans (hnow.trans hclock)
    · obtain ⟨hgone, hdone⟩ := h.deleted deletion hold
      refine ⟨fun row' hrow' hid' => ?_, hdone⟩
      obtain ⟨row, hmem, hid, -⟩ := hrow row' hrow'
      exact hgone row hmem (hid.symm.trans hid')
  · intro other hother
    rcases (getElem?_set_iff hget).mp hother with ⟨-, rfl⟩ | ⟨hne, -⟩
    · trivial
    · exact absurd rfl hne
  · intro i other hother hi
    rcases (getElem?_set_iff hget).mp hother with ⟨rfl, -⟩ | ⟨-, hold⟩
    · exact absurd rfl hi
    · exact h.others i other hold hi

/-- An extension commits. -/
theorem extend (h : Honouring rows₀ w phases) {instanceId : Nat} {expiresAt clock : Timestamp}
    {db : PluginDb} (hget : phases[tid]? = some .extending) (hclock : w.clock ≤ clock)
    (hlater : ∀ row, w.site.plugin.getInstance instanceId = some row → row.expiresAt ≤ expiresAt)
    (hunswept : ∀ now listed, phases[0]? = some (.sweeping now listed) →
      (∃ row ∈ listed, row.id = instanceId) → expiresAt ≤ now)
    (happly : w.site.plugin.applyAll [.updateInstance instanceId [.expiresAt expiresAt]] = .ok db) :
    Honouring rows₀ { w with
      site := { w.site with plugin := db }, clock := clock
      grants := (instanceId, expiresAt) :: w.grants } (phases.set tid .extending) := by
  have hset : phases.set tid .extending = phases := by
    obtain ⟨hlt, hphase⟩ := List.getElem?_eq_some_iff.mp hget
    rw [← hphase]
    exact List.set_getElem_self hlt
  have hrow : ∀ row' ∈ db.instances, ∃ row ∈ w.site.plugin.instances, row'.id = row.id ∧
      row'.containerId = row.containerId ∧
      row'.expiresAt = if row.id = instanceId then expiresAt else row.expiresAt := by
    intro row' hrow'
    obtain ⟨row, hrow, hafter⟩ := (h.keyed.mem_applyAll happly).mp hrow'
    refine ⟨row, hrow, Write.rowAfter_id hafter, ?_⟩
    simp only [rowAfter, Write.onRow, Option.bind_fun_some] at hafter
    by_cases hid : row.id = instanceId
    · rw [if_pos hid] at hafter ⊢
      cases hafter
      exact ⟨rfl, rfl⟩
    · rw [if_neg hid] at hafter ⊢
      cases hafter
      exact ⟨rfl, rfl⟩
  have hexists : ∃ row ∈ w.site.plugin.instances, row.id = instanceId := by
    by_contra hnone
    simp only [not_exists, not_and] at hnone
    have hget := PluginDb.getInstance_eq_none_iff.mpr hnone
    simp [PluginDb.apply, PluginDb.updateInstance, hget] at happly
  rw [hset]
  constructor
  · exact (h.keyed.applyAll happly).1
  · intro row' hrow'
    obtain ⟨row, hmem, hid, hcontainer, -⟩ := hrow row' hrow'
    rw [hid, hcontainer]
    exact h.rows row hmem
  · intro grant hgrant row' hrow' hid'
    obtain ⟨row, hmem, hid, -, htime⟩ := hrow row' hrow'
    rw [htime]
    rcases List.mem_cons.mp hgrant with rfl | hold
    · rw [if_pos (hid.symm.trans hid')]
    · have hbefore := h.granted grant hold row hmem (hid.symm.trans hid')
      split
      · rename_i hthis
        exact hbefore.trans (hlater row (hthis ▸ h.keyed.getInstance hmem))
      · exact hbefore
  · intro deletion hdeletion
    obtain ⟨hgone, hdone⟩ := h.deleted deletion hdeletion
    constructor
    · intro row' hrow' hid'
      obtain ⟨row, hmem, hid, -⟩ := hrow row' hrow'
      exact hgone row hmem (hid.symm.trans hid')
    · intro grant hgrant hid
      rcases List.mem_cons.mp hgrant with rfl | hold
      · obtain ⟨row, hmem, hid'⟩ := hexists
        exact absurd (hid'.trans hid) (hgone row hmem)
      · exact hdone grant hold hid
  · intro phase hphase
    have hbefore := h.sweep phase hphase
    cases phase with
    | sweeping now listed =>
      obtain ⟨hnow, hlisted, hgranted, hreleased⟩ := hbefore
      refine ⟨hnow.trans hclock, hlisted, ?_, hreleased⟩
      intro grant hgrant hlist
      rcases List.mem_cons.mp hgrant with rfl | hold
      · exact hunswept now listed hphase hlist
      · exact hgranted grant hold hlist
    | woken now => exact ⟨hbefore.1.trans hclock, hbefore.2⟩
    | ready | finished | extending => exact hbefore
  · exact h.others

end Honouring

/-- **One call keeps the history honest**, if it is not an extension of a row that the sweep holds. -/
theorem Honouring.step {rows₀ : List EdoInstance} {rpc : RpcSem} {w w' : TimedSite}
    {phases : List SweepPhase} {tid : Nat} {phase : SweepPhase} {op : SiteOp} {res : op.Res}
    (h : Honouring rows₀ w phases) (hget : phases[tid]? = some phase) (hadmits : phase.admits op)
    (hsem : timedSem rpc w op res w') (hok : ExtendsUnswept w phases ⟨tid, op, res⟩) :
    Honouring rows₀ w' (phases.set tid (phase.next op res)) := by
  obtain ⟨site, clock, hclock, hsite, htime, rfl⟩ := hsem
  cases op with
  | utcnow =>
    cases hsite
    cases htime
    by_cases hready : phase = .ready
    · subst hready
      obtain rfl := h.eq_zero hget nofun
      refine h.sweepOn hget rfl rfl rfl ⟨le_rfl, ?_⟩
      exact h.sweep _ hget
    · have hstays : phase.next .utcnow clock = phase := by
        cases phase with
        | ready => exact absurd rfl hready
        | _ => rfl
      rw [hstays]
      exact h.wait hget rfl hclock rfl rfl rfl
  | select =>
    obtain ⟨rfl, rfl⟩ := hsite
    cases phase with
    | woken now =>
      obtain rfl := h.eq_zero hget nofun
      exact h.list hget rfl hclock rfl rfl rfl
    | _ => exact h.wait hget rfl hclock rfl rfl rfl
  | rpc request =>
    cases request with
    | containerReleaseInstance containerId =>
      obtain ⟨now, listed, rfl, row, hrow, hcontainer⟩ := hadmits
      obtain rfl := h.eq_zero hget nofun
      exact h.release hget hrow hcontainer (by rw [hsite.2]) hclock
    | _ => cases hadmits
  | commit writes =>
    obtain ⟨rfl, rfl⟩ := hsite
    rcases hadmits with ⟨now, listed, rfl, hwrites⟩ | ⟨rfl, instanceId, expiresAt, rfl⟩
    · obtain rfl := h.eq_zero hget nofun
      unfold PluginDb.commit
      cases happly : w.site.plugin.applyAll writes with
      | ok db =>
        simp only [TimedSite.note, extensionsOf_sweep hwrites, List.nil_append]
        exact h.finish hget hclock hwrites happly
      | error err => exact h.sweepOn hget rfl rfl rfl trivial
    · unfold PluginDb.commit
      cases happly : w.site.plugin.applyAll [.updateInstance instanceId [.expiresAt expiresAt]] with
      | ok db => exact h.extend hget hclock hok.1 hok.2 happly
      | error err => exact h.wait hget rfl hclock rfl rfl rfl
  | flush _ | insertInstance _ _ _ | rateLimit _ _ _ => cases hadmits

/-! ## Runs -/

abbrev SweepConfig : Type := Config siteEffect PluginErr SweepPhase TimedSite

/-- A sweep, and requests for extensions: who asks, and for which instance. -/
def startSweep (requests : List (Option Int × Nat)) (s : Site) (clock : Timestamp) : SweepConfig :=
  ⟨⟨s, clock, [], [], []⟩, ⟨.ready, unattended Scheduler.sweepExpired⟩ ::
    requests.map fun request =>
      ⟨.extending, unattended (UserRoutes.extendInstance request.1 request.2)⟩⟩

/-- The sweep does not delete a row before an end of its time that was granted, and does not release
    its container before one that was granted by the time the sweep is over. -/
def HonoursExtensions (rows₀ : List EdoInstance) (c : SweepConfig) : Prop :=
  (∀ grant ∈ c.world.grants, ∀ deletion ∈ c.world.deletions, grant.1 = deletion.2 →
    grant.2 ≤ deletion.1) ∧
  (c.phases[0]? ≠ some .finished → ∀ grant ∈ c.world.grants, ∀ release ∈ c.world.releases,
    (∃ row ∈ rows₀, row.id = grant.1 ∧ row.containerId = some release.2) → grant.2 ≤ release.1)

theorem Honouring.honours {db₀ : PluginDb} {c : SweepConfig} (hkeyed : db₀.Keyed)
    (h : Honouring db₀.instances c.world c.phases) (hsweep : ∃ phase, c.phases[0]? = some phase) :
    HonoursExtensions db₀.instances c := by
  constructor
  · intro grant hgrant deletion hdeletion hid
    exact (h.deleted deletion hdeletion).2 grant hgrant hid
  · rintro hrunning grant hgrant release hrelease ⟨row₀, hrow₀, hid, hcontainer⟩
    obtain ⟨phase, hphase⟩ := hsweep
    have hexplains := h.sweep phase hphase
    cases phase with
    | sweeping now listed =>
      obtain ⟨-, hlisted, hgranted, hreleased⟩ := hexplains
      obtain ⟨hnow, row, hrow, hcontainer'⟩ := hreleased release hrelease
      obtain ⟨other, hother, hid', hsame⟩ := hlisted row hrow
      have hsameId : row₀.id = other.id := by
        apply hkeyed.containers row₀ hrow₀ other hother
        · rw [hcontainer]
          rfl
        · rw [hcontainer, hsame, hcontainer']
      exact (hgranted grant hgrant ⟨row, hrow, by rw [← hid', ← hsameId, hid]⟩).trans hnow
    | ready =>
      rw [show c.world.releases = [] from hexplains] at hrelease
      cases hrelease
    | woken now =>
      rw [hexplains.2] at hrelease
      cases hrelease
    | finished => exact absurd hphase hrunning
    | extending => exact hexplains.elim

/-- There is always a sweep among the threads. -/
theorem length_phases {rpc : RpcSem} {ok : TimedSite → List SweepPhase → Event siteEffect → Prop}
    {c₀ c : SweepConfig} (h : Reach (timedSem rpc) SweepPhase.next ok c₀ c) :
    c.threads.length = c₀.threads.length := by
  induction h with
  | start => rfl
  | step _ hstep _ ih =>
    cases hstep with
    | mk _ _ => exact List.length_set.trans ih

/-- **A granted extension is honoured by the sweep**, if no extension commits on a row that the sweep
    holds, and none overwrites a later end. -/
theorem extension_honoured (rpc : RpcSem) (s : Site) (clock : Timestamp)
    (requests : List (Option Int × Nat)) (c : SweepConfig) (hkeyed : s.plugin.Keyed)
    (hreach : Reach (timedSem rpc) SweepPhase.next ExtendsUnswept (startSweep requests s clock) c) :
    HonoursExtensions s.plugin.instances c := by
  have hconf : ∀ thread ∈ (startSweep requests s clock).threads,
      Sweeps thread.prog (fun _ _ => True) thread.phase := by
    intro thread hthread
    rcases List.mem_cons.mp hthread with rfl | hextension
    · exact follows_unattended (P := fun _ => True) sweeps_sweepExpired
    · obtain ⟨request, -, rfl⟩ := List.mem_map.mp hextension
      exact follows_unattended (P := fun _ => True) sweeps_extendInstance
  have hinit : Honouring s.plugin.instances (startSweep requests s clock).world
      (startSweep requests s clock).phases := by
    constructor
    · exact hkeyed
    · exact fun row hrow => ⟨row, hrow, rfl, rfl⟩
    · exact fun _ h => nomatch h
    · exact fun _ h => nomatch h
    · rintro phase hphase
      cases hphase
      rfl
    · intro i phase hphase hi
      obtain ⟨j, rfl⟩ := Nat.exists_eq_succ_of_ne_zero hi
      simp only [Config.phases, startSweep, List.map_cons, List.getElem?_cons_succ] at hphase
      obtain ⟨thread, hthread, rfl⟩ := List.mem_map.mp (List.mem_of_getElem? hphase)
      obtain ⟨request, -, rfl⟩ := List.mem_map.mp hthread
      rfl
  have hkeeps : ∀ (w : TimedSite) (phases : List SweepPhase) (tid : Nat) (phase : SweepPhase)
      (op : SiteOp) (res : op.Res) (w' : TimedSite), Honouring s.plugin.instances w phases →
      phases[tid]? = some phase → phase.admits op → timedSem rpc w op res w' →
      ExtendsUnswept w phases ⟨tid, op, res⟩ →
      True ∧ Honouring s.plugin.instances w' (phases.set tid (phase.next op res)) :=
    fun _ _ _ _ _ _ _ h hget hadmits hsem hok => ⟨trivial, h.step hget hadmits hsem hok⟩
  apply Honouring.honours hkeyed (reach_invariant hkeeps hconf hinit hreach).1
  have hlength : 0 < c.phases.length := by
    rw [Config.phases, List.length_map, length_phases hreach]
    exact Nat.succ_pos _
  exact ⟨_, List.getElem?_eq_getElem hlength⟩

/-! ## Two orders -/

/-- The clock shows the time of the call. -/
def atTime (clock : Timestamp) : (op : SiteOp) → op.Choice → op.Choice
  | .utcnow, _ => clock
  | _, choice => choice

def timedMachine (call : RpcExec) : Machine siteEffect TimedSite where
  Choice op := Timestamp × op.Choice
  exec w op choice :=
    if w.clock ≤ choice.1 then
      (op.exec call w.site (atTime choice.1 op choice.2)).map fun result =>
        (result.1, { w with site := result.2, clock := choice.1 }.note op result.1)
    else none

theorem timedSem_of_exec {call : RpcExec} {rpc : RpcSem} (hrpc : rpc.Executes call)
    (w : TimedSite) (op : SiteOp) (choice : Timestamp × op.Choice) (res : op.Res) (w' : TimedSite)
    (h : (timedMachine call).exec w op choice = some (res, w')) : timedSem rpc w op res w' := by
  simp only [timedMachine] at h
  split at h
  · rename_i hclock
    obtain ⟨⟨res', site⟩, hexec, heq⟩ := Option.map_eq_some_iff.mp h
    cases heq
    refine ⟨site, choice.1, hclock, siteSem_of_exec hrpc hexec, ?_, rfl⟩
    cases op with
    | utcnow =>
      cases hexec
      rfl
    | _ => trivial
  · cases h

/-- A sweep and an extension of the one instance, in blocks of calls that take place at a time. -/
def sweepWith (check : TimedSite → List SweepPhase → Event siteEffect → Bool)
    (blocks : List (Nat × Nat × Timestamp)) : Option (Site × SweepConfig) :=
  (siteHistory (execServed DaemonEnv.default) sameContent (fun _ _ => true) [spawns] freshSite).bind
    fun s => ((timedMachine (execServed DaemonEnv.default)).runChecked SweepPhase.next check
      (blocks.flatMap fun block =>
        List.replicate block.2.1 (block.1, fun op => (block.2.2, quietSiteChoice 0 op)))
      (startSweep [(some 1, 1)] s 0)).map fun c => (s, c)

theorem reach_sweepWith {check : TimedSite → List SweepPhase → Event siteEffect → Bool}
    {blocks : List (Nat × Nat × Timestamp)} {s : Site} {c : SweepConfig}
    (h : sweepWith check blocks = some (s, c)) :
    Reach (timedSem (Served DaemonEnv.default)) SweepPhase.next
      (fun w phases event => check w phases event = true) (startSweep [(some 1, 1)] s 0) c := by
  obtain ⟨s₁, -, hrest⟩ := Option.bind_eq_some_iff.mp h
  obtain ⟨c₁, hrun, heq⟩ := Option.map_eq_some_iff.mp hrest
  cases heq
  exact Machine.reach_of_runChecked (timedSem_of_exec (executes_served _)) hrun

/-- The executable form of `ExtendsUnswept`. -/
def extendsUnswept (w : TimedSite) (phases : List SweepPhase) (event : Event siteEffect) : Bool :=
  match event.op with
  | .commit [.updateInstance instanceId [.expiresAt expiresAt]] =>
    ((w.site.plugin.getInstance instanceId).all fun row => row.expiresAt ≤ expiresAt) &&
      match phases.head? with
      | some (.sweeping now listed) =>
        (listed.all fun row => row.id ≠ instanceId) || expiresAt ≤ now
      | _ => true
  | _ => true

theorem extendsUnswept_of_check {w : TimedSite} {phases : List SweepPhase}
    {event : Event siteEffect} (h : extendsUnswept w phases event = true) :
    ExtendsUnswept w phases event := by
  unfold extendsUnswept at h
  unfold ExtendsUnswept
  split
  · rename_i instanceId expiresAt hop
    simp only [hop, Bool.and_eq_true, Option.all_eq_true, decide_eq_true_eq] at h
    refine ⟨h.1, ?_⟩
    rintro now listed hphase ⟨row, hrow, hid⟩
    have hlisted := h.2
    simp only [List.head?_eq_getElem?, hphase, Bool.or_eq_true, decide_eq_true_eq,
      List.all_eq_true] at hlisted
    rcases hlisted with hnone | hle
    · exact absurd hid (hnone row hrow)
    · exact hle
  · trivial

def extendThenSweep : List (Nat × Nat × Timestamp) :=
  [(1, 8, timedelta 3500), (0, 4, timedelta 5400)]

def extendDuringSweep : List (Nat × Nat × Timestamp) :=
  [(0, 2, timedelta 3600), (1, 7, timedelta 3600), (0, 2, timedelta 3601)]

/-- The history of a run. -/
def Records (grants : List (Nat × Timestamp)) (releases : List (Timestamp × ContainerId))
    (deletions : List (Timestamp × Nat)) (result : Site × SweepConfig) : Prop :=
  result.1.plugin.Keyed ∧ result.2.world.grants = grants ∧ result.2.world.releases = releases ∧
    result.2.world.deletions = deletions

instance (grants : List (Nat × Timestamp)) (releases : List (Timestamp × ContainerId))
    (deletions : List (Timestamp × Nat)) (result : Site × SweepConfig) :
    Decidable (Records grants releases deletions result) := by
  unfold Records
  infer_instance

theorem extendThenSweep_records : (sweepWith extendsUnswept extendThenSweep).any (fun result =>
    decide (Records [(1, timedelta 5400)] [(timedelta 5400, 1)] [(timedelta 5400, 1)] result)) =
      true := by
  decide +kernel

/-- The extension comes first, and the sweep waits for the later end. -/
theorem extension_honoured_extendThenSweep :
    ∃ s c, sweepWith extendsUnswept extendThenSweep = some (s, c) ∧
      c.world.grants = [(1, timedelta 5400)] ∧ c.world.deletions = [(timedelta 5400, 1)] ∧
      HonoursExtensions s.plugin.instances c := by
  obtain ⟨⟨s, c⟩, hrun, hrecords⟩ := (Option.any_eq_true _ _).mp extendThenSweep_records
  obtain ⟨hkeyed, hgrants, -, hdeletions⟩ := of_decide_eq_true hrecords
  refine ⟨s, c, hrun, hgrants, hdeletions, ?_⟩
  exact extension_honoured (Served DaemonEnv.default) s 0 [(some 1, 1)] c hkeyed
    ((reach_sweepWith hrun).mono fun _ _ _ => extendsUnswept_of_check)

theorem extendDuringSweep_records : (sweepWith (fun _ _ _ => true) extendDuringSweep).any
    (fun result => decide (Records [(1, timedelta 5400)] [(timedelta 3601, 1)]
      [(timedelta 3601, 1)] result)) = true := by
  decide +kernel

/-- The sweep deletes the instance a second after its extension. -/
theorem not_extension_honoured :
    ¬ ∀ (env : DaemonEnv) (s : Site) (clock : Timestamp) (requests : List (Option Int × Nat))
      (c : SweepConfig), s.plugin.Keyed →
      Reach (timedSem (Served env)) SweepPhase.next (fun _ _ _ => True)
        (startSweep requests s clock) c → HonoursExtensions s.plugin.instances c := by
  intro hall
  obtain ⟨⟨s, c⟩, hrun, hrecords⟩ := (Option.any_eq_true _ _).mp extendDuringSweep_records
  obtain ⟨hkeyed, hgrants, -, hdeletions⟩ := of_decide_eq_true hrecords
  have hthis := hall DaemonEnv.default s 0 [(some 1, 1)] c hkeyed
    ((reach_sweepWith hrun).mono fun _ _ _ _ => trivial)
  have hgrant : (1, timedelta 5400) ∈ c.world.grants := by
    rw [hgrants]
    exact List.mem_cons_self
  have hdeletion : (timedelta 3601, 1) ∈ c.world.deletions := by
    rw [hdeletions]
    exact List.mem_cons_self
  exact absurd (hthis.1 _ hgrant _ hdeletion rfl) (by decide)

end EdoPlugin
