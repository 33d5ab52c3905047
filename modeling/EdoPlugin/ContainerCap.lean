import EdoPlugin.InstanceTable
import EdoPlugin.RouteCalls
import EdoPlugin.SiteThreads

/-!
# The cap on an owner's containers

`spawn_instance` counts the owner's rows, compares the count with the setting, and commits a new row
in a transaction of its own.  The setting is text that `int` has to read back; what it cannot read is
replaced by the default.  While no row is reserved between a request's count and its own reservation,
the rows reserved under a setting that reads back stay within it.
-/

namespace EdoPlugin

open Interaction

/-! ## Saving the setting -/

/-- A value of the settings form; a float comes with the `str` of it. -/
inductive SettingValue where
  | int (value : Int)
  | float (value : Rat) (repr : String)
  | text (value : String)
deriving DecidableEq, Repr

namespace SettingValue

/-- `str(value)` -/
def str : SettingValue → String
  | .int value => toString value
  | .float _ repr => repr
  | .text value => value

/-- The number that was saved, if it is one. -/
def amount : SettingValue → Option Rat
  | .int value => some value
  | .float value _ => some value
  | .text value => (pyInt value).map fun n : Int => (n : Rat)

end SettingValue

namespace PluginDb

variable {db : PluginDb}

/-- `EdoSettings.set` -/
def setSetting (db : PluginDb) (key : String) (value : SettingValue) : PluginDb :=
  { db with settings :=
      (key, some value.str) :: db.settings.filter fun entry => entry.1 ≠ key }

def allowedSettings : List String :=
  ["max_containers_per_owner", "container_ttl_seconds", "extend_seconds",
   "extend_threshold_seconds", "submit_rate_limit", "submit_rate_window", "vpn_server_endpoint",
   "public_ip", "reconcile_interval_seconds", "ttl_check_interval_seconds"]

/-- `settings_save` -/
def settingsSave (db : PluginDb) (payload : List (String × SettingValue)) : PluginDb :=
  payload.foldl (fun db entry =>
    if entry.1 ∈ allowedSettings then db.setSetting entry.1 entry.2 else db) db

/-- The limit that `spawn_instance` reads. -/
def containerLimit (db : PluginDb) : Int := db.setting "max_containers_per_owner" 3

end PluginDb

/-- The limit that `spawn_instance` reads once the value is saved. -/
def SettingValue.limit (value : SettingValue) : Int :=
  (PluginDb.empty.setSetting "max_containers_per_owner" value).containerLimit

/-- A float is saved as text that `int` may not read, and then the default takes its place. -/
def SettingValue.ReadsBack : SettingValue → Prop
  | .float value repr => (SettingValue.float value repr).limit ≤ value
  | .int _ | .text _ => True

section Saving

variable {db : PluginDb} {payload : List (String × SettingValue)} {key : String}
  {value : SettingValue}

theorem lookup_filter_ne {settings : List (String × Option String)} {other : String}
    (hkey : key ≠ other) :
    (settings.filter fun entry => entry.1 ≠ other).lookup key = settings.lookup key := by
  induction settings with
  | nil => rfl
  | cons entry settings ih =>
    by_cases hentry : entry.1 = other
    · have hother : (key == entry.1) = false := by simpa [hentry] using hkey
      rw [List.filter_cons_of_neg (by simp [hentry]), ih, List.lookup_cons, hother]
    · rw [List.filter_cons_of_pos (by simp [hentry]), List.lookup_cons, List.lookup_cons, ih]

theorem lookup_setSetting {other : String} : (db.setSetting other value).settings.lookup key =
    if key = other then some (some value.str) else db.settings.lookup key := by
  unfold PluginDb.setSetting
  rw [List.lookup_cons]
  by_cases hkey : key = other
  · simp [hkey]
  · have hother : (key == other) = false := by simpa using hkey
    rw [if_neg hkey, hother]
    exact lookup_filter_ne hkey

/-- A form that does not name the key leaves its value alone. -/
theorem lookup_settingsSave_of_notMem (hkey : key ∉ payload.map Prod.fst) :
    (db.settingsSave payload).settings.lookup key = db.settings.lookup key := by
  induction payload generalizing db with
  | nil => rfl
  | cons entry payload ih =>
    simp only [List.map_cons, List.mem_cons, not_or] at hkey
    unfold PluginDb.settingsSave
    rw [List.foldl_cons]
    refine (ih hkey.2).trans ?_
    split
    · rw [lookup_setSetting, if_neg hkey.1]
    · rfl

/-- What the form names is saved as its text. -/
theorem lookup_settingsSave (hallowed : key ∈ PluginDb.allowedSettings)
    (hkeys : (payload.map Prod.fst).Nodup) (hmem : (key, value) ∈ payload) :
    (db.settingsSave payload).settings.lookup key = some (some value.str) := by
  induction payload generalizing db with
  | nil => cases hmem
  | cons entry payload ih =>
    rw [List.map_cons, List.nodup_cons] at hkeys
    unfold PluginDb.settingsSave
    rw [List.foldl_cons]
    rcases List.mem_cons.mp hmem with rfl | hrest
    · refine (lookup_settingsSave_of_notMem hkeys.1).trans ?_
      rw [if_pos hallowed, lookup_setSetting, if_pos rfl]
    · exact ih hkeys.2 hrest

/-- The text alone decides what is read. -/
theorem containerLimit_of_lookup
    (h : db.settings.lookup "max_containers_per_owner" = some (some value.str)) :
    db.containerLimit = value.limit := by
  unfold SettingValue.limit PluginDb.containerLimit PluginDb.setting
  rw [h, lookup_setSetting, if_pos rfl]

/-- Nothing but settings is saved. -/
theorem settingsSave_eq :
    db.settingsSave payload = { db with settings := (db.settingsSave payload).settings } := by
  induction payload generalizing db with
  | nil => rfl
  | cons entry payload ih =>
    unfold PluginDb.settingsSave
    rw [List.foldl_cons]
    refine ih.trans ?_
    split <;> rfl

theorem containerLimit_settingsSave (hkeys : (payload.map Prod.fst).Nodup)
    (hmem : ("max_containers_per_owner", value) ∈ payload) :
    (db.settingsSave payload).containerLimit = value.limit :=
  containerLimit_of_lookup (lookup_settingsSave (by decide) hkeys hmem)

/-- `int` reads digits as their number. -/
theorem digitsValue_of_isDigit {afterDigit : Bool} {n : Nat} {cs : List Char}
    (hcs : ∀ c ∈ cs, c.isDigit = true) (hsome : cs ≠ [] ∨ afterDigit = true) :
    digitsValue n afterDigit cs = some (Nat.ofDigitChars 10 cs n) := by
  induction cs generalizing n afterDigit with
  | nil =>
    rcases hsome with h | h
    · exact absurd rfl h
    · simp [digitsValue, h]
  | cons c cs ih =>
    have hrest := fun other hother => hcs other (List.mem_cons_of_mem c hother)
    rw [digitsValue, if_pos (hcs c List.mem_cons_self), ih hrest (Or.inr rfl),
      Nat.ofDigitChars_cons, Nat.mul_comm]
    rfl

theorem pyInt_toString (n : Nat) : pyInt (toString (n : Int)) = some (n : Int) := by
  have hdigits : ∀ c ∈ Nat.toDigits 10 n, c.isDigit = true :=
    fun c hc => Nat.isDigit_of_mem_toDigits (by decide) (by decide) hc
  have htext : (toString (n : Int)).toList = Nat.toDigits 10 n := by
    show (String.ofList (Nat.toDigits 10 n)).toList = _
    rw [String.toList_ofList]
  have hvalue : digitsValue 0 false (Nat.toDigits 10 n) = some n := by
    rw [digitsValue_of_isDigit hdigits (Or.inl Nat.toDigits_ne_nil), Nat.ofDigitChars_ten_toDigits]
  unfold pyInt
  rw [htext, stripChars_of_isDigit hdigits]
  cases hcs : Nat.toDigits 10 n with
  | nil => exact absurd hcs Nat.toDigits_ne_nil
  | cons c cs =>
    rw [hcs] at hdigits hvalue
    have hc := hdigits c List.mem_cons_self
    split
    · rename_i heq
      cases heq
      cases hc
    · rename_i heq
      cases heq
      cases hc
    · rw [hvalue]
      rfl

/-- A positive number is read back as a limit no larger than itself. -/
theorem limit_le {amount : Rat} (hamount : value.amount = some amount) (hpos : 0 < amount)
    (hreads : value.ReadsBack) : (value.limit : Rat) ≤ amount := by
  have hread : ∀ n : Int, pyInt value.str = some n → (n : Rat) = amount → (value.limit : Rat) ≤ amount := by
    intro n hn heq
    have hne : n ≠ 0 := by
      rintro rfl
      simp [← heq] at hpos
    unfold SettingValue.limit PluginDb.containerLimit PluginDb.setting
    rw [lookup_setSetting, if_pos rfl]
    simp only [hn, hne, if_false]
    exact heq.le
  cases value with
  | int n =>
    cases hamount
    obtain ⟨k, rfl⟩ := Int.eq_ofNat_of_zero_le (Int.cast_pos.mp hpos).le
    exact hread k (pyInt_toString k) rfl
  | float amount repr =>
    cases hamount
    exact hreads
  | text text =>
    obtain ⟨n, hn, rfl⟩ := Option.map_eq_some_iff.mp hamount
    exact hread n hn rfl

example : (SettingValue.float (5 / 2) "2.5").limit = 3 := by decide +kernel

end Saving

/-! ## How far a spawn has come -/

inductive CapPhase where
  /-- It has made so many queries. -/
  | looking (queries : Nat)
  /-- It has counted the owner's rows, when this was the next id. -/
  | counted (nextId count : Nat)
  | reserved (instanceId : Nat)
  | over
deriving DecidableEq, Repr

namespace CapPhase

def next (owner : Owner) (phase : CapPhase) : (op : SiteOp) → op.Res → CapPhase
  | .select, db =>
    match phase with
    -- the fifth query counts
    | .looking queries =>
      if queries < 4 then .looking (queries + 1)
      else .counted db.nextInstanceId (db.activeCount owner)
    | _ => phase
  | .insertInstance .., .ok instanceId => .reserved instanceId
  | .insertInstance .., .error _ => .over
  | _, _ => phase

def admits (owner : Owner) (limit : Int) (phase : CapPhase) : SiteOp → Prop
  | .select | .utcnow | .rpc _ => True
  | .insertInstance _ reservedFor _ => reservedFor = owner ∧
      ∃ nextId count, phase = .counted nextId count ∧ (count : Int) < limit
  | .commit writes => ∃ instanceId, phase = .reserved instanceId ∧
      (writes = [.deleteInstance instanceId] ∨
        ∃ reply, writes = [.updateInstance instanceId (UserRoutes.spawnColumns reply)])
  | _ => False

def expected (db₀ : PluginDb) (_ : CapPhase) : (op : SiteOp) → op.Res → Prop
  | .select, db => db₀.SameButInstances db
  | _, _ => True

end CapPhase

section Conformance

variable {db₀ : PluginDb} {owner : Owner} {limit : Int} {α : Type} {caller : Option Int}
  {challengeId : Nat} {Q : Except PluginErr α → CapPhase → Prop}

abbrev Reserves (db₀ : PluginDb) (owner : Owner) (p : Plugin α)
    (Q : Except PluginErr α → CapPhase → Prop) (phase : CapPhase) : Prop :=
  PluginFollows (CapPhase.expected db₀) (CapPhase.admits owner db₀.containerLimit) (CapPhase.next owner)
    p Q phase

/-- Once its row is reserved, a spawn writes to no other. -/
theorem reserves_reserved {ttl : Int} {instanceId : Nat} :
    Reserves db₀ owner (UserRoutes.spawnReserved owner challengeId ttl instanceId) (fun _ _ => True)
      (.reserved instanceId) := by
  have hcalls : CallsOnly (E := siteEffect) (fun op => CapPhase.admits owner db₀.containerLimit
      (.reserved instanceId) op ∧ ∀ res, CapPhase.next owner (.reserved instanceId) op res =
        .reserved instanceId) (UserRoutes.spawnReserved owner challengeId ttl instanceId) := by
    apply callsOnly_spawnReserved
    · exact ⟨⟨trivial, fun _ => rfl⟩, ⟨trivial, fun _ => rfl⟩⟩
    · constructor
      · exact fun _ => ⟨trivial, fun _ => rfl⟩
      · exact ⟨⟨instanceId, rfl, Or.inl rfl⟩, fun _ => rfl⟩
      · exact fun reply => ⟨⟨instanceId, rfl, Or.inr ⟨reply, rfl⟩⟩, fun _ => rfl⟩
  apply wp_mono (Conforms.of_callsOnly hcalls (fun _ h => h.1) fun _ _ h => h.2 _)
  exact fun _ _ _ => trivial

/-- A spawn that has counted below the limit. -/
theorem reserves_insert {challenge : EdoChallenge} {ttl : Int} {nextId count : Nat}
    (hcount : (count : Int) < db₀.containerLimit) :
    Reserves db₀ owner (do
        let now ← utcnow
        let inserted ← @Prog.perform siteEffect PluginErr
          (.insertInstance challenge.id owner (now + timedelta ttl))
        match inserted with
        | .error _ => UserRoutes.refuseSpawn owner challenge.id
        | .ok instanceId => UserRoutes.spawnReserved owner challenge.id ttl instanceId)
      (fun _ _ => True) (.counted nextId count) := by
  apply Conforms.perform trivial
  intro now _
  apply Conforms.perform ⟨rfl, nextId, count, rfl, hcount⟩
  intro inserted _
  cases inserted with
  | ok instanceId => exact reserves_reserved
  | error err =>
    apply follows_select trivial
    intro db _
    cases db.findInstance challenge.id owner with
    | some existing => trivial
    | none => trivial

theorem reserves_challenge {challenge : EdoChallenge} :
    Reserves db₀ owner (UserRoutes.spawnChallenge owner challenge) (fun _ _ => True) (.looking 3) := by
  apply wp_bind.mpr
  apply follows_select trivial
  intro db hsame
  apply follows_select trivial
  intro counted hcounted
  by_cases hfull : db.setting "max_containers_per_owner" 3 ≤ counted.activeCount owner
  · rw [if_pos hfull]
    trivial
  · rw [if_neg hfull]
    rw [hsame.setting] at hfull
    have hcount : (counted.activeCount owner : Int) < db₀.containerLimit := not_le.mp hfull
    apply wp_bind.mpr
    unfold UserRoutes.ttlOf
    dsimp only
    split
    · apply follows_select trivial
      intro _ _
      exact reserves_insert hcount
    · exact reserves_insert hcount

/-- A spawn counts, compares and reserves in this order. -/
theorem reserves_spawnInstance (howner : db₀.resolveOwner caller = some owner) :
    Reserves db₀ owner (UserRoutes.spawnInstance caller challengeId) (fun _ _ => True)
      (.looking 0) := by
  apply follows_select trivial
  intro db hsame
  cases db.currentUser caller with
  | none => trivial
  | some user =>
    rw [hsame.resolveOwner, howner]
    apply wp_bind.mpr
    apply follows_select trivial
    intro db' hsame'
    rw [hsame'.resolveOwner, howner]
    apply follows_select trivial
    intro db'' _
    cases db''.getChallenge challengeId with
    | none => trivial
    | some challenge =>
      exact Conforms.ite trivial reserves_challenge

end Conformance

/-! ## Counting rows -/

/-- The owner's active rows from an id on. -/
def PluginDb.activeSince (db : PluginDb) (owner : Owner) (start : Nat) : List EdoInstance :=
  db.instances.filter fun row => row.isActive ∧ row.owner = owner ∧ start ≤ row.id

section Counting

variable {db db' : PluginDb} {owner : Owner} {start : Nat} {writes : List Write}

theorem length_filter_filterMap_le {α : Type} {p : α → Bool} {f : α → Option α} {l : List α}
    (h : ∀ x ∈ l, ∀ y, f x = some y → p y = true → p x = true) :
    ((l.filterMap f).filter p).length ≤ (l.filter p).length := by
  induction l with
  | nil => simp
  | cons x l ih =>
    have hrest := ih fun y hy => h y (List.mem_cons_of_mem x hy)
    cases hfx : f x with
    | none =>
      rw [List.filterMap_cons_none hfx]
      exact hrest.trans ((List.sublist_cons_self x l).filter p).length_le
    | some y =>
      rw [List.filterMap_cons_some hfx]
      by_cases hy : p y = true
      · have hx := h x List.mem_cons_self y hfx hy
        rw [List.filter_cons_of_pos hy, List.filter_cons_of_pos hx]
        exact Nat.succ_le_succ hrest
      · rw [List.filter_cons_of_neg hy]
        exact hrest.trans ((List.sublist_cons_self x l).filter p).length_le

theorem activeSince_le : (db.activeSince owner start).length ≤ db.activeCount owner := by
  unfold PluginDb.activeSince PluginDb.activeCount
  rw [← List.countP_eq_length_filter, ← List.countP_eq_length_filter]
  apply List.countP_mono_left
  intro row _ hrow
  have hthis := of_decide_eq_true hrow
  exact decide_eq_true ⟨hthis.1, hthis.2.1⟩

/-- The writes to a row that was active before. -/
theorem activeCount_applyAll_le (hkeyed : db.Keyed)
    (hwrites : ∀ row ∈ db.instances, ∀ row', rowAfter writes row = some row' →
      row'.owner = row.owner ∧ (row'.isActive = true → row.isActive = true))
    (h : db.applyAll writes = .ok db') : db'.activeCount owner ≤ db.activeCount owner := by
  unfold PluginDb.activeCount
  rw [(hkeyed.applyAll h).2.2]
  apply length_filter_filterMap_le
  intro row hrow row' hafter hactive
  obtain ⟨howner, hback⟩ := hwrites row hrow row' hafter
  have hthis := of_decide_eq_true hactive
  exact decide_eq_true ⟨hback hthis.1, howner.symm.trans hthis.2⟩

theorem activeSince_applyAll_le (hkeyed : db.Keyed)
    (hwrites : ∀ row ∈ db.instances, ∀ row', rowAfter writes row = some row' →
      row'.owner = row.owner ∧ (row'.isActive = true → row.isActive = true))
    (h : db.applyAll writes = .ok db') :
    (db'.activeSince owner start).length ≤ (db.activeSince owner start).length := by
  unfold PluginDb.activeSince
  rw [(hkeyed.applyAll h).2.2]
  apply length_filter_filterMap_le
  intro row hrow row' hafter hactive
  obtain ⟨howner, hback⟩ := hwrites row hrow row' hafter
  have hthis := of_decide_eq_true hactive
  rw [Write.rowAfter_id hafter] at hthis
  exact decide_eq_true ⟨hback hthis.1, howner.symm.trans hthis.2.1, hthis.2.2⟩

/-- What a spawn writes to the row it has reserved. -/
theorem rowAfter_spawn {instanceId : Nat} {row row' : EdoInstance}
    (hactive : row.id = instanceId → row.isActive = true)
    (hwrites : writes = [.deleteInstance instanceId] ∨
      ∃ reply, writes = [.updateInstance instanceId (UserRoutes.spawnColumns reply)])
    (h : rowAfter writes row = some row') : row'.owner = row.owner ∧
      (row'.isActive = true → row.isActive = true) ∧ (row.isActive = true → row'.isActive = true) := by
  rcases hwrites with rfl | ⟨reply, rfl⟩
  · simp only [rowAfter, Write.onRow, Option.bind_fun_some] at h
    split at h <;> cases h
    exact ⟨rfl, id, id⟩
  · simp only [rowAfter, Write.onRow, Option.bind_fun_some] at h
    split at h <;> cases h
    · rename_i hid
      exact ⟨rfl, fun _ => hactive hid, fun _ => rfl⟩
    · exact ⟨rfl, id, id⟩

end Counting

/-! ## The invariant -/

/-- Nobody has reserved a row since the request counted. -/
def CountsFresh (s : Site) (phases : List CapPhase) (event : Event siteEffect) : Prop :=
  match event.op with
  | .insertInstance .. => ∀ nextId count, phases[event.tid]? = some (.counted nextId count) →
      s.plugin.nextInstanceId = nextId
  | _ => True

structure Capped (db₀ : PluginDb) (owner : Owner) (s : Site) (phases : List CapPhase) : Prop where
  same : db₀.SameButInstances s.plugin
  keyed : s.plugin.Keyed
  later : db₀.nextInstanceId ≤ s.plugin.nextInstanceId
  active : ∀ row ∈ s.plugin.instances, db₀.nextInstanceId ≤ row.id → row.isActive = true
  bounded : ((s.plugin.activeSince owner db₀.nextInstanceId).length : Int) ≤
    max db₀.containerLimit 0
  counted : ∀ i nextId count : Nat, phases[i]? = some (.counted nextId count) →
    nextId ≤ s.plugin.nextInstanceId ∧
      (s.plugin.nextInstanceId = nextId → s.plugin.activeCount owner ≤ count)
  reserved : ∀ i instanceId : Nat, phases[i]? = some (.reserved instanceId) →
    db₀.nextInstanceId ≤ instanceId

namespace Capped

variable {db₀ : PluginDb} {owner : Owner} {s s' : Site} {phases : List CapPhase} {tid : Nat}
  {phase : CapPhase}

theorem start (hkeyed : db₀.Keyed) (hs : s.plugin = db₀)
    (hphases : ∀ (i : Nat) (φ : CapPhase), phases[i]? = some φ → φ = .looking 0) : Capped db₀ owner s phases := by
  subst hs
  constructor
  · exact .refl _
  · exact hkeyed
  · exact le_rfl
  · intro row hrow hlate
    exact absurd (hkeyed.ids_lt row hrow) (not_lt.mpr hlate)
  · have hempty : s.plugin.activeSince owner s.plugin.nextInstanceId = [] := by
      apply List.filter_eq_nil_iff.mpr
      intro row hrow hlate
      exact absurd (hkeyed.ids_lt row hrow) (not_lt.mpr (of_decide_eq_true hlate).2.2)
    rw [hempty]
    exact le_max_right _ _
  · intro i nextId count hi
    cases hphases i _ hi
  · intro i instanceId hi
    cases hphases i _ hi

/-- A step that leaves the rows alone. -/
theorem of_sameRows (h : Capped db₀ owner s phases) {φ : CapPhase} (hget : phases[tid]? = some phase)
    (hplugin : s'.plugin = s.plugin)
    (hcounted : ∀ nextId count, φ = .counted nextId count → nextId ≤ s.plugin.nextInstanceId ∧
      (s.plugin.nextInstanceId = nextId → s.plugin.activeCount owner ≤ count))
    (hreserved : ∀ instanceId, φ = .reserved instanceId → db₀.nextInstanceId ≤ instanceId) :
    Capped db₀ owner s' (phases.set tid φ) := by
  constructor
  · rw [hplugin]
    exact h.same
  · rw [hplugin]
    exact h.keyed
  · rw [hplugin]
    exact h.later
  · rw [hplugin]
    exact h.active
  · rw [hplugin]
    exact h.bounded
  · rw [hplugin]
    intro i nextId count hi
    rcases (getElem?_set_iff hget).mp hi with ⟨-, hphase⟩ | ⟨-, hother⟩
    · exact hcounted nextId count hphase.symm
    · exact h.counted i nextId count hother
  · intro i instanceId hi
    rcases (getElem?_set_iff hget).mp hi with ⟨-, hphase⟩ | ⟨-, hother⟩
    · exact hreserved instanceId hphase.symm
    · exact h.reserved i instanceId hother

/-- The phase stays, and the rows do. -/
theorem unchanged (h : Capped db₀ owner s phases) (hget : phases[tid]? = some phase)
    (hplugin : s'.plugin = s.plugin) : Capped db₀ owner s' (phases.set tid phase) := by
  apply h.of_sameRows hget hplugin
  · rintro nextId count rfl
    exact h.counted tid nextId count hget
  · rintro instanceId rfl
    exact h.reserved tid instanceId hget

/-- A query, which may be the one that counts. -/
theorem select (h : Capped db₀ owner s phases) (hget : phases[tid]? = some phase) :
    Capped db₀ owner s (phases.set tid (CapPhase.next owner phase .select s.plugin)) := by
  cases phase with
  | looking queries =>
    apply h.of_sameRows hget rfl
    · intro nextId count hphase
      simp only [CapPhase.next] at hphase
      split at hphase <;> cases hphase
      exact ⟨le_rfl, fun _ => le_rfl⟩
    · intro instanceId hphase
      simp only [CapPhase.next] at hphase
      split at hphase <;> cases hphase
  | _ => exact h.unchanged hget rfl

/-- A commit of a spawn, to the row it has reserved. -/
theorem commit (h : Capped db₀ owner s phases) {instanceId : Nat} {writes : List Write}
    {db : PluginDb} (hget : phases[tid]? = some (.reserved instanceId))
    (hwrites : writes = [.deleteInstance instanceId] ∨
      ∃ reply, writes = [.updateInstance instanceId (UserRoutes.spawnColumns reply)])
    (happly : s.plugin.applyAll writes = .ok db) :
    Capped db₀ owner { s with plugin := db } (phases.set tid (.reserved instanceId)) := by
  have hlate := h.reserved tid instanceId hget
  have hrows : ∀ row ∈ s.plugin.instances, ∀ row', rowAfter writes row = some row' →
      row'.owner = row.owner ∧ (row'.isActive = true → row.isActive = true) ∧
        (row.isActive = true → row'.isActive = true) := by
    intro row hrow row' hafter
    apply rowAfter_spawn _ hwrites hafter
    intro hid
    exact h.active row hrow (hid ▸ hlate)
  have hfewer : ∀ row ∈ s.plugin.instances, ∀ row', rowAfter writes row = some row' →
      row'.owner = row.owner ∧ (row'.isActive = true → row.isActive = true) :=
    fun row hrow row' hafter => ⟨(hrows row hrow row' hafter).1, (hrows row hrow row' hafter).2.1⟩
  have honInstances : ∀ write ∈ writes, write.OnInstances := by
    rcases hwrites with rfl | ⟨reply, rfl⟩ <;> simp [Write.OnInstances]
  obtain ⟨hkeyed, hnext, -⟩ := h.keyed.applyAll happly
  constructor
  · exact h.same.applyAll honInstances happly
  · exact hkeyed
  · rw [hnext]
    exact h.later
  · intro row' hrow' hid
    obtain ⟨row, hrow, hafter⟩ := (h.keyed.mem_applyAll happly).mp hrow'
    rw [Write.rowAfter_id hafter] at hid
    exact (hrows row hrow row' hafter).2.2 (h.active row hrow hid)
  · have hle : (db.activeSince owner db₀.nextInstanceId).length ≤
        (s.plugin.activeSince owner db₀.nextInstanceId).length :=
      activeSince_applyAll_le h.keyed hfewer happly
    exact (Int.ofNat_le.mpr hle).trans h.bounded
  · intro i nextId count hi
    rcases (getElem?_set_iff hget).mp hi with ⟨-, hphase⟩ | ⟨-, hother⟩
    · cases hphase
    · rw [hnext]
      obtain ⟨hle, hcount⟩ := h.counted i nextId count hother
      exact ⟨hle, fun heq => (activeCount_applyAll_le h.keyed hfewer happly).trans (hcount heq)⟩
  · intro i other hi
    rcases (getElem?_set_iff hget).mp hi with ⟨-, hphase⟩ | ⟨-, hother⟩
    · cases hphase
      exact hlate
    · exact h.reserved i other hother

/-- A reservation on a fresh count. -/
theorem insert (h : Capped db₀ owner s phases) {nextId count challengeId instanceId : Nat}
    {expiresAt : Timestamp} {db : PluginDb} (hget : phases[tid]? = some (.counted nextId count))
    (hcount : (count : Int) < db₀.containerLimit) (hfresh : s.plugin.nextInstanceId = nextId)
    (hinsert : s.plugin.insertInstance challengeId owner expiresAt = .ok (instanceId, db)) :
    Capped db₀ owner { s with plugin := db } (phases.set tid (.reserved instanceId)) := by
  have hsame := h.same.insertInstance hinsert
  have hkeyed := h.keyed.insertInstance hinsert
  obtain ⟨rfl, -, new, -, -, howner, hstatus, -, hdb⟩ := PluginDb.insertInstance_eq hinsert
  have hrows : db.instances = s.plugin.instances ++ [new] := by rw [hdb]
  have hnext : db.nextInstanceId = s.plugin.nextInstanceId + 1 := by rw [hdb]
  have hnew : new.isActive = true := by simp [EdoInstance.isActive, hstatus]
  have hmore : db.activeCount owner = s.plugin.activeCount owner + 1 := by
    simp [PluginDb.activeCount, hrows, List.filter_append, hnew, howner]
  constructor
  · exact hsame
  · exact hkeyed
  · rw [hnext]
    exact h.later.trans (Nat.le_succ _)
  · intro row hrow hlate
    rw [hrows] at hrow
    rcases List.mem_append.mp hrow with hold | hrow
    · exact h.active row hold hlate
    · rw [List.mem_singleton.mp hrow]
      exact hnew
  · have hle := (h.counted tid nextId count hget).2 hfresh
    have hsince : (db.activeSince owner db₀.nextInstanceId).length ≤ s.plugin.activeCount owner + 1 :=
      hmore ▸ activeSince_le
    show ((db.activeSince owner db₀.nextInstanceId).length : Int) ≤ _
    apply le_max_of_le_left
    omega
  · intro i nextId' count' hi
    rcases (getElem?_set_iff hget).mp hi with ⟨-, hphase⟩ | ⟨-, hother⟩
    · cases hphase
    · have hle := (h.counted i nextId' count' hother).1
      rw [hnext]
      refine ⟨hle.trans (Nat.le_succ _), fun heq => ?_⟩
      exact absurd (heq.le.trans hle) (Nat.not_succ_le_self _)
  · intro i other hi
    rcases (getElem?_set_iff hget).mp hi with ⟨-, hphase⟩ | ⟨-, hother⟩
    · cases hphase
      exact h.later
    · exact h.reserved i other hother

end Capped

/-- **One call keeps the owner within the limit**, if reservations rest on fresh counts. -/
theorem Capped.step {db₀ : PluginDb} {owner : Owner} {rpc : RpcSem} {s s' : Site}
    {phases : List CapPhase} {tid : Nat} {phase : CapPhase} {op : SiteOp} {res : op.Res}
    (h : Capped db₀ owner s phases) (hget : phases[tid]? = some phase)
    (hadmits : CapPhase.admits owner db₀.containerLimit phase op)
    (hsem : siteSem rpc s op res s') (hfresh : CountsFresh s phases ⟨tid, op, res⟩) :
    CapPhase.expected db₀ phase op res ∧
      Capped db₀ owner s' (phases.set tid (CapPhase.next owner phase op res)) := by
  cases op with
  | select =>
    obtain ⟨rfl, rfl⟩ := hsem
    exact ⟨h.same, h.select hget⟩
  | commit writes =>
    obtain ⟨instanceId, rfl, hwrites⟩ := hadmits
    obtain ⟨rfl, rfl⟩ := hsem
    refine ⟨trivial, ?_⟩
    unfold PluginDb.commit
    cases happly : s.plugin.applyAll writes with
    | ok db => exact h.commit hget hwrites happly
    | error err => exact h.unchanged hget rfl
  | insertInstance challengeId reservedFor expiresAt =>
    obtain ⟨rfl, nextId, count, rfl, hcount⟩ := hadmits
    obtain ⟨rfl, rfl⟩ := hsem
    refine ⟨trivial, ?_⟩
    unfold PluginDb.commitInstance
    cases hinsert : s.plugin.insertInstance challengeId reservedFor expiresAt with
    | ok result => exact h.insert hget hcount (hfresh nextId count hget) hinsert
    | error err =>
      apply h.of_sameRows hget rfl
      · exact fun _ _ hphase => nomatch hphase
      · exact fun _ hphase => nomatch hphase
  | rpc request =>
    rw [hsem.2]
    exact ⟨trivial, h.unchanged hget rfl⟩
  | utcnow =>
    cases hsem
    exact ⟨trivial, h.unchanged hget rfl⟩
  | flush _ | rateLimit _ _ _ => cases hadmits

/-! ## Runs -/

/-- The requests of a run: who asks, and for which challenge. -/
def startSpawnRequests (requests : List (Option Int × Nat)) (s : Site) : SiteConfig CapPhase :=
  startThreads (.looking 0)
    (requests.map fun request => unattended (UserRoutes.spawnInstance request.1 request.2)) s

/-- **The cap on an owner's containers** holds of the rows reserved under a setting that reads back,
    when every reservation rests on a fresh count. -/
theorem cap_holds (rpc : RpcSem) (s : Site) (payload : List (String × SettingValue))
    (value : SettingValue) (amount : Rat) (owner : Owner) (requests : List (Option Int × Nat))
    (c : SiteConfig CapPhase) (hkeyed : s.plugin.Keyed) (hkeys : (payload.map Prod.fst).Nodup)
    (hsaved : ("max_containers_per_owner", value) ∈ payload)
    (hamount : value.amount = some amount) (hpos : 0 < amount) (hreads : value.ReadsBack)
    (howner : ∀ request ∈ requests, s.plugin.resolveOwner request.1 = some owner)
    (hreach : Reach (siteSem rpc) (CapPhase.next owner) CountsFresh
      (startSpawnRequests requests { s with plugin := s.plugin.settingsSave payload }) c) :
    ((c.world.plugin.activeSince owner s.plugin.nextInstanceId).length : Rat) ≤ amount := by
  have hlimit : (s.plugin.settingsSave payload).containerLimit = value.limit :=
    containerLimit_settingsSave hkeys hsaved
  have hsame : s.plugin.settingsSave payload =
    { s.plugin with settings := (s.plugin.settingsSave payload).settings } := settingsSave_eq
  generalize s.plugin.settingsSave payload = db₀ at hlimit hsame hreach
  have hkeyed₀ : db₀.Keyed := by
    rw [hsame]
    exact hkeyed.of_sublist (List.Sublist.refl _) rfl
  have hnext₀ : db₀.nextInstanceId = s.plugin.nextInstanceId := by rw [hsame]
  have hconf : ∀ thread ∈ (startSpawnRequests requests { s with plugin := db₀ }).threads,
      Reserves db₀ owner thread.prog (fun _ _ => True) thread.phase := by
    intro thread hthread
    obtain ⟨p, hp, rfl⟩ := List.mem_map.mp hthread
    obtain ⟨request, hrequest, rfl⟩ := List.mem_map.mp hp
    apply follows_unattended (P := fun _ => True)
    apply reserves_spawnInstance
    rw [hsame]
    exact howner request hrequest
  have hinit : Capped db₀ owner { s with plugin := db₀ }
      (startSpawnRequests requests { s with plugin := db₀ }).phases :=
    .start hkeyed₀ rfl fun _ _ hi => phases_startThreads hi
  have hkeeps : ∀ (world : Site) (phases : List CapPhase) (tid : Nat) (phase : CapPhase)
      (op : SiteOp) (res : op.Res) (world' : Site), Capped db₀ owner world phases →
      phases[tid]? = some phase → CapPhase.admits owner db₀.containerLimit phase op →
      siteSem rpc world op res world' → CountsFresh world phases ⟨tid, op, res⟩ →
      CapPhase.expected db₀ phase op res ∧
        Capped db₀ owner world' (phases.set tid (CapPhase.next owner phase op res)) :=
    fun _ _ _ _ _ _ _ h hget hadmits hsem hfresh => h.step hget hadmits hsem hfresh
  have hbounded := (reach_invariant hkeeps hconf hinit hreach).1.bounded
  rw [hnext₀, hlimit] at hbounded
  have hle := limit_le hamount hpos hreads
  have hcast : ((c.world.plugin.activeSince owner s.plugin.nextInstanceId).length : Rat) ≤
      max (value.limit : Rat) 0 := by exact_mod_cast hbounded
  exact hcast.trans (max_le hle hpos.le)

/-! ## Two requests at once -/

/-- Alice may have one container, and asks for two challenges. -/
def cappedSite : Site := { freshSite with plugin := { freshSite.plugin with
  challenges := freshSite.plugin.challenges ++
    freshSite.plugin.challenges.map fun challenge => { challenge with id := 2 } } }

def capOfOne : List (String × SettingValue) := [("max_containers_per_owner", .int 1)]

def spawnBoth (check : Site → List CapPhase → Event siteEffect → Bool) (blocks : List (Nat × Nat)) :
    Option (SiteConfig CapPhase) :=
  (siteMachine (execServed DaemonEnv.default)).runChecked (CapPhase.next ⟨"user", 1⟩) check
    (blocksOf (quietSiteChoice 0) blocks)
    (startSpawnRequests [(some 1, 1), (some 1, 2)]
      { cappedSite with plugin := cappedSite.plugin.settingsSave capOfOne })

theorem reach_spawnBoth {check : Site → List CapPhase → Event siteEffect → Bool}
    {blocks : List (Nat × Nat)} {c : SiteConfig CapPhase} (h : spawnBoth check blocks = some c) :
    Reach (siteSem (Served DaemonEnv.default)) (CapPhase.next ⟨"user", 1⟩)
      (fun s phases event => check s phases event = true)
      (startSpawnRequests [(some 1, 1), (some 1, 2)]
        { cappedSite with plugin := cappedSite.plugin.settingsSave capOfOne }) c :=
  reach_of_siteSchedule (executes_served _) h

/-- The rows reserved since the cap was saved. -/
def reservedRows (c : SiteConfig CapPhase) : Nat :=
  (c.world.plugin.activeSince ⟨"user", 1⟩ cappedSite.plugin.nextInstanceId).length

def countsFresh (s : Site) (phases : List CapPhase) (event : Event siteEffect) : Bool :=
  match event.op with
  | .insertInstance .. =>
    match phases[event.tid]? with
    | some (.counted nextId _) => s.plugin.nextInstanceId = nextId
    | _ => true
  | _ => true

theorem countsFresh_of_check {s : Site} {phases : List CapPhase} {event : Event siteEffect}
    (h : countsFresh s phases event = true) : CountsFresh s phases event := by
  obtain ⟨tid, op, res⟩ := event
  cases op with
  | insertInstance challengeId owner expiresAt =>
    intro nextId count hget
    simp only [countsFresh, hget, decide_eq_true_eq] at h
    exact h
  | _ => trivial

/-- One request after the other. -/
theorem spawnInTurn_reserves : (spawnBoth countsFresh [(0, 16), (1, 5)]).any
    (fun c => decide (reservedRows c = 1)) = true := by
  decide +kernel

theorem cap_holds_inTurn : ∃ c, spawnBoth countsFresh [(0, 16), (1, 5)] = some c ∧
    reservedRows c = 1 ∧ (reservedRows c : Rat) ≤ 1 := by
  obtain ⟨c, hrun, hrows⟩ := (Option.any_eq_true _ _).mp spawnInTurn_reserves
  refine ⟨c, hrun, of_decide_eq_true hrows, ?_⟩
  refine cap_holds (Served DaemonEnv.default) cappedSite capOfOne (.int 1) 1 ⟨"user", 1⟩
    [(some 1, 1), (some 1, 2)] c (by decide) (by decide) List.mem_cons_self rfl one_pos trivial ?_
    ((reach_spawnBoth hrun).mono fun _ _ _ => countsFresh_of_check)
  decide

/-- Both requests count before either reserves. -/
theorem spawnTogether_reserves : (spawnBoth (fun _ _ _ => true) [(0, 7), (1, 7), (0, 1), (1, 1)]).any
    (fun c => decide (reservedRows c = 2)) = true := by
  decide +kernel

/-- Two rows under a cap of one. -/
theorem not_cap_holds :
    ¬ ∀ (env : DaemonEnv) (s : Site) (payload : List (String × SettingValue))
      (value : SettingValue) (amount : Rat) (owner : Owner) (requests : List (Option Int × Nat))
      (c : SiteConfig CapPhase), s.plugin.Keyed → (payload.map Prod.fst).Nodup →
      ("max_containers_per_owner", value) ∈ payload → value.amount = some amount → 0 < amount →
      (∀ request ∈ requests, s.plugin.resolveOwner request.1 = some owner) →
      Reach (siteSem (Served env)) (CapPhase.next owner) (fun _ _ _ => True)
        (startSpawnRequests requests { s with plugin := s.plugin.settingsSave payload }) c →
      ((c.world.plugin.activeSince owner s.plugin.nextInstanceId).length : Rat) ≤ amount := by
  intro hall
  obtain ⟨c, hrun, hrows⟩ := (Option.any_eq_true _ _).mp spawnTogether_reserves
  have hthis : (reservedRows c : Rat) ≤ 1 := by
    refine hall DaemonEnv.default cappedSite capOfOne (.int 1) 1 ⟨"user", 1⟩
      [(some 1, 1), (some 1, 2)] c (by decide) (by decide) List.mem_cons_self rfl one_pos ?_
      ((reach_spawnBoth hrun).mono fun _ _ _ _ => trivial)
    decide
  rw [of_decide_eq_true hrows] at hthis
  norm_num at hthis

end EdoPlugin
