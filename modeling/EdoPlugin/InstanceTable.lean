import EdoPlugin.RouteRules

/-!
# The rows of `edo_instances`

What the writes of a session make of one row, and that the constraints of the table survive them.
A commit changes each row on its own, so a property of the rows is followed through a commit by
looking at one row at a time.
-/

namespace EdoPlugin

open Interaction

/-! ## Columns -/

@[simp] theorem InstanceColumn.set_id (row : EdoInstance) (column : InstanceColumn) :
    (InstanceColumn.set row column).id = row.id := by
  cases column <;> rfl

@[simp] theorem InstanceColumn.set_key (row : EdoInstance) (column : InstanceColumn) :
    (InstanceColumn.set row column).key = row.key := by
  cases column <;> rfl

namespace EdoInstance

variable {row row' : EdoInstance} {columns : List InstanceColumn}

@[simp] theorem update_nil : row.update [] = row := rfl

@[simp] theorem update_cons {column : InstanceColumn} :
    row.update (column :: columns) = (InstanceColumn.set row column).update columns := rfl

@[simp] theorem update_id : (row.update columns).id = row.id := by
  induction columns generalizing row with
  | nil => rfl
  | cons column columns ih => rw [update_cons, ih, InstanceColumn.set_id]

@[simp] theorem update_key : (row.update columns).key = row.key := by
  induction columns generalizing row with
  | nil => rfl
  | cons column columns ih => rw [update_cons, ih, InstanceColumn.set_key]

theorem update_containerId (h : ∀ containerId, .containerId containerId ∉ columns) :
    (row.update columns).containerId = row.containerId := by
  induction columns generalizing row with
  | nil => rfl
  | cons column columns ih =>
    rw [update_cons, ih fun id hmem => h id (List.mem_cons_of_mem _ hmem)]
    cases column with
    | containerId id => exact absurd List.mem_cons_self (h id)
    | _ => rfl

end EdoInstance

/-! ## One row -/

/-- What a write makes of a row. -/
def Write.onRow (row : EdoInstance) : Write → Option EdoInstance
  | .updateInstance instanceId columns =>
    if row.id = instanceId then some (row.update columns) else some row
  | .deleteInstance instanceId => if row.id = instanceId then none else some row
  | .deleteActiveInstances => if row.isActive then none else some row
  | _ => some row

/-- What the writes of a session make of a row. -/
def rowAfter : List Write → EdoInstance → Option EdoInstance
  | [], row => some row
  | write :: writes, row => (write.onRow row).bind (rowAfter writes)

namespace Write

variable {write : Write} {writes : List Write} {row row' : EdoInstance}

/-- What no update changes, a row that is left still has. -/
theorem onRow_congr {β : Type} {f : EdoInstance → β} (hf : ∀ instanceId columns,
      write = .updateInstance instanceId columns → ∀ row, f (row.update columns) = f row)
    (h : write.onRow row = some row') : f row' = f row := by
  cases write with
  | updateInstance instanceId columns =>
    simp only [onRow] at h
    split at h <;> cases h
    · exact hf instanceId columns rfl row
    · rfl
  | deleteInstance instanceId =>
    simp only [onRow] at h
    split at h <;> cases h
    rfl
  | deleteActiveInstances =>
    simp only [onRow] at h
    split at h <;> cases h
    rfl
  | _ =>
    cases h
    rfl

theorem rowAfter_congr {β : Type} {f : EdoInstance → β} (hf : ∀ instanceId columns,
      updateInstance instanceId columns ∈ writes → ∀ row, f (row.update columns) = f row)
    (h : rowAfter writes row = some row') : f row' = f row := by
  induction writes generalizing row with
  | nil =>
    cases h
    rfl
  | cons write writes ih =>
    obtain ⟨row₁, hwrite, hrest⟩ := Option.bind_eq_some_iff.mp h
    rw [ih (fun id columns hmem => hf id columns (List.mem_cons_of_mem _ hmem)) hrest]
    apply onRow_congr _ hwrite
    rintro id columns rfl
    exact hf id columns List.mem_cons_self

theorem onRow_id (h : write.onRow row = some row') : row'.id = row.id :=
  onRow_congr (fun _ _ _ _ => EdoInstance.update_id) h

theorem rowAfter_id (h : rowAfter writes row = some row') : row'.id = row.id :=
  rowAfter_congr (fun _ _ _ _ => EdoInstance.update_id) h

theorem rowAfter_key (h : rowAfter writes row = some row') : row'.key = row.key :=
  rowAfter_congr (fun _ _ _ _ => EdoInstance.update_key) h

/-- The write says which container is the instance's. -/
def NamesContainer : Write → Prop
  | .updateInstance _ columns => ∃ containerId, .containerId containerId ∈ columns
  | _ => False

theorem rowAfter_containerId (hwrites : ∀ write ∈ writes, ¬ write.NamesContainer)
    (h : rowAfter writes row = some row') : row'.containerId = row.containerId := by
  apply rowAfter_congr _ h
  intro instanceId columns hmem row
  apply EdoInstance.update_containerId
  exact fun containerId hcolumn => hwrites _ hmem ⟨containerId, hcolumn⟩

/-- A row that is gone has been deleted by its id, unless all active rows were. -/
theorem deleted_of_rowAfter (hactive : deleteActiveInstances ∉ writes)
    (h : rowAfter writes row = none) : deleteInstance row.id ∈ writes := by
  induction writes generalizing row with
  | nil => cases h
  | cons write writes ih =>
    cases hrow : write.onRow row with
    | some row₁ =>
      rw [rowAfter, hrow, Option.bind_some] at h
      have hrest := ih (fun hmem => hactive (List.mem_cons_of_mem _ hmem)) h
      rw [onRow_id hrow] at hrest
      exact List.mem_cons_of_mem _ hrest
    | none =>
      cases write with
      | deleteInstance instanceId =>
        simp only [onRow] at hrow
        split at hrow
        · rename_i hid
          rw [hid]
          exact List.mem_cons_self
        · cases hrow
      | deleteActiveInstances => exact absurd List.mem_cons_self hactive
      | updateInstance instanceId columns =>
        simp only [onRow] at hrow
        split at hrow <;> cases hrow
      | _ => cases hrow

end Write

/-- The writes to `edo_instances`. -/
def Write.OnInstances : Write → Prop
  | .updateInstance .. | .deleteInstance _ | .deleteActiveInstances => True
  | _ => False

/-- A session that writes to `edo_instances` alone. -/
theorem PluginDb.applyAll_onInstances {db db' : PluginDb} {writes : List Write}
    (hwrites : ∀ write ∈ writes, write.OnInstances) (h : db.applyAll writes = .ok db') :
    db' = { db with instances := db'.instances } := by
  induction writes generalizing db with
  | nil =>
    cases h
    rfl
  | cons write writes ih =>
    have hfirst := hwrites write List.mem_cons_self
    simp only [PluginDb.applyAll] at h
    split at h
    · rename_i db₁ hwrite
      have hsame : db₁ = { db with instances := db₁.instances } := by
        cases write with
        | updateInstance instanceId columns =>
          simp only [PluginDb.apply, updateInstance] at hwrite
          split at hwrite
          · cases hwrite
          · split at hwrite <;> cases hwrite
            rfl
        | deleteInstance _ | deleteActiveInstances =>
          cases hwrite
          rfl
        | _ => cases hfirst
      have hrest := ih (fun other hother => hwrites other (List.mem_cons_of_mem _ hother)) h
      rw [hrest, hsame]
    · cases h

/-- What an insertion adds. -/
theorem PluginDb.insertInstance_eq {db db' : PluginDb} {challengeId id : Nat} {owner : Owner}
    {expiresAt : Timestamp} (h : db.insertInstance challengeId owner expiresAt = .ok (id, db')) :
    id = db.nextInstanceId ∧ (∀ row ∈ db.instances, row.key ≠ (challengeId, owner)) ∧
      ∃ row : EdoInstance, row.id = id ∧ row.challengeId = challengeId ∧ row.owner = owner ∧
        row.status = .pending ∧ row.containerId = none ∧ db' = { db with
          instances := db.instances ++ [row], nextInstanceId := db.nextInstanceId + 1 } := by
  unfold PluginDb.insertInstance at h
  split at h
  · cases h
  · rename_i hfree
    cases h
    refine ⟨rfl, fun row hrow hkey => hfree ?_, _, rfl, rfl, rfl, rfl, rfl, rfl⟩
    exact List.any_eq_true.mpr ⟨row, hrow, decide_eq_true hkey⟩

/-- The two databases differ in `edo_instances` alone. -/
def PluginDb.SameButInstances (db₀ db : PluginDb) : Prop :=
  db = { db₀ with instances := db.instances, nextInstanceId := db.nextInstanceId }

namespace PluginDb.SameButInstances

variable {db₀ db db' : PluginDb}

theorem refl (db : PluginDb) : db.SameButInstances db := rfl

theorem resolveOwner (h : db₀.SameButInstances db) (caller : Option Int) :
    db.resolveOwner caller = db₀.resolveOwner caller := by
  rw [h]
  rfl

theorem setting (h : db₀.SameButInstances db) (key : String) (default : Int) :
    db.setting key default = db₀.setting key default := by
  rw [h]
  rfl

theorem applyAll (h : db₀.SameButInstances db) {writes : List Write}
    (hwrites : ∀ write ∈ writes, write.OnInstances) (happly : db.applyAll writes = .ok db') :
    db₀.SameButInstances db' := by
  unfold SameButInstances at h ⊢
  rw [applyAll_onInstances hwrites happly, h]

theorem insertInstance (h : db₀.SameButInstances db) {challengeId id : Nat} {owner : Owner}
    {expiresAt : Timestamp} (hinsert : db.insertInstance challengeId owner expiresAt = .ok (id, db')) :
    db₀.SameButInstances db' := by
  obtain ⟨-, -, row, -, -, -, -, -, rfl⟩ := insertInstance_eq hinsert
  unfold SameButInstances at h ⊢
  rw [h]

end PluginDb.SameButInstances

/-! ## The table -/

/-- The constraints of `edo_instances`: the ids are a primary key, given out in order, and no two
    rows hold one container. -/
structure PluginDb.Keyed (db : PluginDb) : Prop where
  ids : (db.instances.map EdoInstance.id).Nodup
  ids_lt : ∀ row ∈ db.instances, row.id < db.nextInstanceId
  containers : ∀ row ∈ db.instances, ∀ other ∈ db.instances, row.containerId.isSome = true →
    row.containerId = other.containerId → row.id = other.id

instance (db : PluginDb) : Decidable db.Keyed :=
  decidable_of_iff ((db.instances.map EdoInstance.id).Nodup ∧
      (∀ row ∈ db.instances, row.id < db.nextInstanceId) ∧
      ∀ row ∈ db.instances, ∀ other ∈ db.instances, row.containerId.isSome = true →
        row.containerId = other.containerId → row.id = other.id)
    ⟨fun h => ⟨h.1, h.2.1, h.2.2⟩, fun h => ⟨h.ids, h.ids_lt, h.containers⟩⟩

namespace PluginDb

variable {db db' : PluginDb} {write : Write} {writes : List Write} {row row' : EdoInstance}

theorem mem_of_getInstance {instanceId : Nat} (h : db.getInstance instanceId = some row) :
    row ∈ db.instances ∧ row.id = instanceId :=
  ⟨List.mem_of_find?_eq_some h, by simpa using List.find?_some h⟩

theorem getInstance_eq_none_iff {instanceId : Nat} :
    db.getInstance instanceId = none ↔ ∀ row ∈ db.instances, row.id ≠ instanceId := by
  simp [getInstance]

namespace Keyed

theorem eq_of_id (h : db.Keyed) (hrow : row ∈ db.instances) (hrow' : row' ∈ db.instances)
    (hid : row.id = row'.id) : row = row' :=
  Db.eq_of_nodup_map h.ids hrow hrow' hid

theorem getInstance (h : db.Keyed) (hrow : row ∈ db.instances) : db.getInstance row.id = some row := by
  cases hget : db.getInstance row.id with
  | none => exact absurd rfl (getInstance_eq_none_iff.mp hget row hrow)
  | some other =>
    obtain ⟨hother, hid⟩ := mem_of_getInstance hget
    rw [h.eq_of_id hother hrow hid]

/-- Fewer rows. -/
theorem of_sublist (h : db.Keyed) (hrows : db'.instances.Sublist db.instances)
    (hnext : db'.nextInstanceId = db.nextInstanceId) : db'.Keyed := by
  constructor
  · exact h.ids.sublist (hrows.map _)
  · intro row hrow
    rw [hnext]
    exact h.ids_lt row (hrows.subset hrow)
  · intro row hrow other hother
    exact h.containers row (hrows.subset hrow) other (hrows.subset hother)

/-- An update that the unique constraint on `container_id` lets through. -/
theorem update (h : db.Keyed) {instanceId : Nat} {columns : List InstanceColumn}
    (hupdate : db.updateInstance instanceId columns = .ok db') :
    db'.Keyed ∧ db'.nextInstanceId = db.nextInstanceId ∧ db'.instances = db.instances.filterMap
      fun row => (Write.updateInstance instanceId columns).onRow row := by
  unfold updateInstance at hupdate
  cases hget : db.getInstance instanceId with
  | none => simp [hget] at hupdate
  | some row =>
    simp only [hget] at hupdate
    obtain ⟨hrow, hid⟩ := mem_of_getInstance hget
    split at hupdate
    · cases hupdate
    · rename_i hfree
      cases hupdate
      have hids : ∀ other, (if other.id = instanceId then row.update columns else other).id =
          other.id := by
        intro other
        split
        · rename_i hother
          rw [EdoInstance.update_id, hid, hother]
        · rfl
      refine ⟨⟨?_, ?_, ?_⟩, rfl, ?_⟩
      · have hsame : (db.instances.map fun other => if other.id = instanceId then row.update columns
            else other).map EdoInstance.id = db.instances.map EdoInstance.id := by
          rw [List.map_map]
          exact List.map_congr_left fun other _ => hids other
        rw [hsame]
        exact h.ids
      · intro other hother
        obtain ⟨old, hold, rfl⟩ := List.mem_map.mp hother
        rw [hids]
        exact h.ids_lt old hold
      · intro one hone other hother hsome hsame
        obtain ⟨oldOne, holdOne, rfl⟩ := List.mem_map.mp hone
        obtain ⟨oldOther, holdOther, rfl⟩ := List.mem_map.mp hother
        rw [hids, hids]
        have hapart : ∀ old ∈ db.instances, old.id ≠ instanceId →
            (row.update columns).containerId.isSome = true →
            old.containerId ≠ (row.update columns).containerId := by
          intro old hold hne hsome heq
          refine hfree ⟨hsome, List.any_eq_true.mpr ⟨old, hold, ?_⟩⟩
          exact decide_eq_true ⟨hne, heq⟩
        by_cases hidOne : oldOne.id = instanceId
        · by_cases hidOther : oldOther.id = instanceId
          · rw [hidOne, hidOther]
          · rw [if_pos hidOne] at hsome hsame
            rw [if_neg hidOther] at hsame
            exact absurd hsame.symm (hapart oldOther holdOther hidOther hsome)
        · by_cases hidOther : oldOther.id = instanceId
          · rw [if_neg hidOne] at hsome hsame
            rw [if_pos hidOther] at hsame
            rw [hsame] at hsome
            exact absurd hsame (hapart oldOne holdOne hidOne hsome)
          · rw [if_neg hidOne] at hsome hsame
            rw [if_neg hidOther] at hsame
            exact h.containers oldOne holdOne oldOther holdOther hsome hsame
      · rw [← List.filterMap_eq_map]
        refine List.filterMap_congr fun other hother => ?_
        simp only [Function.comp_apply, Write.onRow]
        split
        · rename_i hother'
          rw [h.eq_of_id hother hrow (hother'.trans hid.symm)]
        · rfl

theorem filter_eq_filterMap {p : EdoInstance → Bool} {f : EdoInstance → Option EdoInstance}
    (hf : ∀ row, f row = if p row then some row else none) :
    db.instances.filter p = db.instances.filterMap f := by
  rw [← List.filterMap_eq_filter]
  refine List.filterMap_congr fun row _ => ?_
  rw [hf, Option.guard]

/-- One write changes each row on its own. -/
theorem apply (h : db.Keyed) (happly : db.apply write = .ok db') :
    db'.Keyed ∧ db'.nextInstanceId = db.nextInstanceId ∧
      db'.instances = db.instances.filterMap write.onRow := by
  have hsame : ∀ {db' : PluginDb}, db'.instances = db.instances →
      db'.nextInstanceId = db.nextInstanceId → db'.Keyed ∧
        db'.nextInstanceId = db.nextInstanceId ∧ db'.instances = db.instances.filterMap some := by
    intro db' hrows hnext
    refine ⟨h.of_sublist (hrows ▸ List.Sublist.refl _) hnext, hnext, ?_⟩
    rw [hrows, List.filterMap_some]
  cases write with
  | updateInstance instanceId columns => exact h.update happly
  | deleteInstance instanceId =>
    cases happly
    refine ⟨h.of_sublist List.filter_sublist rfl, rfl, ?_⟩
    refine filter_eq_filterMap fun row => ?_
    by_cases hid : row.id = instanceId <;> simp [Write.onRow, hid]
  | deleteActiveInstances =>
    cases happly
    refine ⟨h.of_sublist List.filter_sublist rfl, rfl, ?_⟩
    refine filter_eq_filterMap fun row => ?_
    cases hactive : row.isActive <;> simp [Write.onRow, hactive]
  | insertPeer peer =>
    simp only [PluginDb.apply, insertPeer] at happly
    split at happly
    · cases happly
    · split at happly <;> cases happly
      exact hsame rfl rfl
  | revokePeer userId =>
    simp only [PluginDb.apply, revokePeer] at happly
    split at happly <;> cases happly
    exact hsame rfl rfl
  | insertFlagSolve solve =>
    simp only [PluginDb.apply, insertFlagSolve] at happly
    split at happly <;> cases happly
    exact hsame rfl rfl
  | insertSolve solve =>
    simp only [PluginDb.apply, insertSolve] at happly
    split at happly
    · cases happly
    · split at happly <;> cases happly
      exact hsame rfl rfl
  | insertFail _ | deleteFlagSolves _ _ | deleteSolves _ _ =>
    cases happly
    exact hsame rfl rfl

/-- **A commit changes each row on its own.** -/
theorem applyAll (h : db.Keyed) (happly : db.applyAll writes = .ok db') :
    db'.Keyed ∧ db'.nextInstanceId = db.nextInstanceId ∧
      db'.instances = db.instances.filterMap (rowAfter writes) := by
  induction writes generalizing db with
  | nil =>
    cases happly
    exact ⟨h, rfl, List.filterMap_some.symm⟩
  | cons write writes ih =>
    simp only [PluginDb.applyAll] at happly
    split at happly
    · rename_i db₁ hwrite
      obtain ⟨hkeyed, hnext, hrows⟩ := h.apply hwrite
      obtain ⟨hkeyed', hnext', hrows'⟩ := ih hkeyed happly
      refine ⟨hkeyed', hnext'.trans hnext, ?_⟩
      rw [hrows', hrows, List.filterMap_filterMap]
      rfl
    · cases happly

theorem mem_applyAll (h : db.Keyed) (happly : db.applyAll writes = .ok db') :
    row' ∈ db'.instances ↔ ∃ row ∈ db.instances, rowAfter writes row = some row' := by
  rw [(h.applyAll happly).2.2, List.mem_filterMap]

/-- A new row has no container yet, and the next id. -/
theorem insertInstance (h : db.Keyed) {challengeId : Nat} {owner : Owner} {expiresAt : Timestamp}
    {id : Nat} (hinsert : db.insertInstance challengeId owner expiresAt = .ok (id, db')) :
    db'.Keyed := by
  obtain ⟨rfl, -, new, hid, -, -, -, hcontainer, rfl⟩ := insertInstance_eq hinsert
  constructor
  · refine Db.nodup_map_append_singleton h.ids fun row hrow => ?_
    rw [hid]
    exact Nat.ne_of_lt (h.ids_lt row hrow)
  · intro row hrow
    rcases List.mem_append.mp hrow with hold | hnew
    · exact Nat.lt_succ_of_lt (h.ids_lt row hold)
    · rw [List.mem_singleton.mp hnew, hid]
      exact Nat.lt_succ_self _
  · intro row hrow other hother hsome hsame
    rcases List.mem_append.mp hrow with hold | hnew
    · rcases List.mem_append.mp hother with hold' | hnew'
      · exact h.containers row hold other hold' hsome hsame
      · rw [hsame, List.mem_singleton.mp hnew', hcontainer] at hsome
        cases hsome
    · rw [List.mem_singleton.mp hnew, hcontainer] at hsome
      cases hsome

end Keyed

end PluginDb

end EdoPlugin
