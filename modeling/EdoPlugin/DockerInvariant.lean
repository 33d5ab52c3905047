import EdoPlugin.Docker
import EdoPlugin.DatabaseInvariant

/-!
# What Docker guarantees

Ids are unique and never given twice, and so are the names of networks.  `DockerOp.exec_step` says
what a call can do to the two lists; every fact about Docker later on is derived from it.
-/

namespace EdoPlugin

namespace Docker

structure WellFormed (d : Docker) : Prop where
  containerIds : (d.containers.map Container.id).Nodup
  containerIds_lt : ∀ c ∈ d.containers, c.id < d.nextId
  networkNames : (d.networks.map Network.name).Nodup
  networkIds : (d.networks.map Network.netId).Nodup
  networkIds_lt : ∀ net ∈ d.networks, net.netId < d.nextId

theorem WellFormed.empty : Docker.empty.WellFormed := by
  constructor <;> simp [Docker.empty]

theorem findNetwork_eq_none_iff {d : Docker} {name : String} :
    d.findNetwork name = none ↔ ∀ net ∈ d.networks, net.name ≠ name := by
  simp [findNetwork]

theorem mem_of_findNetwork {d : Docker} {name : String} {net : Network}
    (h : d.findNetwork name = some net) : net ∈ d.networks ∧ net.name = name :=
  ⟨List.mem_of_find?_eq_some h, by simpa using List.find?_some h⟩

theorem mem_of_findContainer_id {d : Docker} {id : ContainerId} {c : Container}
    (h : d.findContainer (.id id) = some c) : c ∈ d.containers ∧ c.id = id :=
  ⟨List.mem_of_find?_eq_some h, by simpa using List.find?_some h⟩

theorem findContainer_id_eq_none_iff {d : Docker} {id : ContainerId} :
    d.findContainer (.id id) = none ↔ ∀ c ∈ d.containers, c.id ≠ id := by
  simp [findContainer]

theorem mem_of_findContainer {d : Docker} {ref : ContainerRef} {c : Container}
    (h : d.findContainer ref = some c) : c ∈ d.containers := by
  cases ref with
  | id _ => exact List.mem_of_find?_eq_some h
  | name _ => exact List.mem_of_find?_eq_some h

theorem WellFormed.findContainer_id {d : Docker} (h : d.WellFormed) {c : Container}
    (hmem : c ∈ d.containers) : d.findContainer (.id c.id) = some c := by
  cases hfind : d.findContainer (.id c.id) with
  | none => exact absurd rfl (findContainer_id_eq_none_iff.mp hfind c hmem)
  | some other =>
    obtain ⟨hother, hid⟩ := mem_of_findContainer_id hfind
    rw [Db.eq_of_nodup_map h.containerIds hother hmem hid]

end Docker

/-- A container that has just been started. -/
def Container.started (c : Container) (net : Network) : Container :=
  { c with status := .running, network := some net, ipAddress := some c.spec.ipv4Address }

def Container.stopped (c : Container) : Container :=
  { c with status := .exited, ipAddress := none }

open Docker

/-- Everything a call can do to Docker. -/
inductive DockerStep (d : Docker) : DockerOp → Docker → Prop
  | same {op} : DockerStep d op d
  | createNetwork {name subnet gateway options labels} : d.findNetwork name = none →
      DockerStep d (.networksCreate name subnet gateway options labels) { d with
        networks := d.networks ++ [⟨d.nextId, name, subnet, gateway, options, labels⟩]
        nextId := d.nextId + 1 }
  | removeNetwork {netId} : d.networkBusy netId = false →
      DockerStep d (.networkRemove netId)
        { d with networks := d.networks.filter fun net => net.netId ≠ netId }
  | createContainer {spec} : DockerStep d (.createContainer spec) { d with
      containers := d.containers ++ [⟨d.nextId, spec, .created, none, none⟩]
      nextId := d.nextId + 1 }
  | start {id c net} : d.findContainer (.id id) = some c →
      d.findNetwork c.spec.networkName = some net →
      net.subnet.contains c.spec.ipv4Address = true →
      DockerStep d (.start id) (d.updateContainer id fun c => c.started net)
  | stop {id} : DockerStep d (.stop id) (d.updateContainer id Container.stopped)
  | remove {id} : DockerStep d (.remove id)
      { d with containers := d.containers.filter fun c => c.id ≠ id }

theorem DockerStep.failing {α : Type} {d : Docker} {op : DockerOp} {fault : Option String}
    {step : Except DockerErr α × Docker} (h : DockerStep d op step.2) :
    DockerStep d op (EdoPlugin.failing fault d step).2 := by
  cases fault with
  | none => exact h
  | some msg => exact .same

/-- **Every call is one of the steps.** -/
theorem DockerOp.exec_step (d : Docker) (op : DockerOp) (choice : op.Choice) :
    DockerStep d op (op.exec d choice).2 := by
  cases op with
  | client => cases choice <;> exact .same
  | networksGet name =>
    apply DockerStep.failing
    exact .same
  | networksCreate name subnet gateway options labels =>
    apply DockerStep.failing
    unfold Docker.networksCreate
    split
    · exact .same
    · rename_i hfind
      exact .createNetwork hfind
  | networkRemove netId =>
    apply DockerStep.failing
    unfold Docker.networkRemove
    split
    · split
      · exact .same
      · rename_i hbusy
        exact .removeNetwork (by simpa using hbusy)
    · exact .same
  | imagesGet tag => exact .same
  | buildImage tag path => exact .same
  | createContainer spec =>
    apply DockerStep.failing
    unfold Docker.createContainer
    split
    · exact .same
    · exact .createContainer
  | start id =>
    apply DockerStep.failing
    unfold Docker.start
    split
    · exact .same
    · rename_i c hfind
      split
      · exact .same
      · split
        · exact .same
        · rename_i net hnet
          split
          · exact .same
          · rename_i hsubnet
            split
            · exact .same
            · split
              · exact .same
              · exact .start hfind hnet (by simpa using hsubnet)
  | containersGet ref =>
    apply DockerStep.failing
    exact .same
  | containersList label =>
    apply DockerStep.failing
    exact .same
  | stop id =>
    apply DockerStep.failing
    unfold Docker.stop
    split
    · exact .same
    · exact .stop
  | remove id =>
    apply DockerStep.failing
    unfold Docker.remove
    split
    · exact .same
    · exact .remove

/-- A container that was got was found. -/
theorem DockerOp.findContainer_of_ok {d : Docker} {ref : ContainerRef} {choice : Option String}
    {c : Container} (hok : (DockerOp.exec d (.containersGet ref) choice).1 = .ok c) :
    d.findContainer ref = some c := by
  cases choice with
  | some msg => cases hok
  | none =>
    simp only [DockerOp.exec, failing, Docker.containersGet] at hok
    cases hfind : d.findContainer ref with
    | none =>
      rw [hfind] at hok
      cases hok
    | some found =>
      rw [hfind] at hok
      cases hok
      rfl

/-! ## The ids stay unique -/

namespace Docker

theorem mem_updateContainer {d : Docker} {id : ContainerId} {f : Container → Container}
    {c : Container} : c ∈ (d.updateContainer id f).containers ↔
      ∃ c₀ ∈ d.containers, (c₀.id = id ∧ f c₀ = c) ∨ (c₀.id ≠ id ∧ c₀ = c) := by
  simp only [updateContainer, List.mem_map]
  constructor
  · rintro ⟨c₀, hmem, heq⟩
    refine ⟨c₀, hmem, ?_⟩
    split at heq
    · rename_i hid
      exact Or.inl ⟨hid, heq⟩
    · rename_i hid
      exact Or.inr ⟨hid, heq⟩
  · rintro ⟨c₀, hmem, ⟨hid, heq⟩ | ⟨hid, heq⟩⟩
    · exact ⟨c₀, hmem, by rw [if_pos hid, heq]⟩
    · exact ⟨c₀, hmem, by rw [if_neg hid, heq]⟩

theorem WellFormed.updateContainer {d : Docker} (h : d.WellFormed) {id : ContainerId}
    {f : Container → Container} (hf : ∀ c, (f c).id = c.id) :
    (d.updateContainer id f).WellFormed := by
  have hids : (d.updateContainer id f).containers.map Container.id =
      d.containers.map Container.id := by
    simp only [Docker.updateContainer, List.map_map]
    apply List.map_congr_left
    intro c _
    simp only [Function.comp_apply]
    split
    · exact hf c
    · rfl
  refine { h with containerIds := hids ▸ h.containerIds, containerIds_lt := ?_ }
  intro c hmem
  obtain ⟨c₀, hmem₀, ⟨-, rfl⟩ | ⟨-, rfl⟩⟩ := mem_updateContainer.mp hmem
  · rw [hf]
    exact h.containerIds_lt c₀ hmem₀
  · exact h.containerIds_lt c₀ hmem₀

theorem WellFormed.step {d d' : Docker} {op : DockerOp} (h : d.WellFormed)
    (hstep : DockerStep d op d') :
    d'.WellFormed := by
  cases hstep with
  | same => exact h
  | @createNetwork name subnet gateway options labels hfree =>
    refine { h with
      containerIds_lt := fun c hc => Nat.lt_succ_of_lt (h.containerIds_lt c hc)
      networkNames :=
        Db.nodup_map_append_singleton h.networkNames (findNetwork_eq_none_iff.mp hfree)
      networkIds := Db.nodup_map_append_singleton h.networkIds fun other hother =>
        Nat.ne_of_lt (h.networkIds_lt other hother)
      networkIds_lt := ?_ }
    intro net hnet
    rcases List.mem_append.mp hnet with hold | hnew
    · exact Nat.lt_succ_of_lt (h.networkIds_lt net hold)
    · rw [List.mem_singleton.mp hnew]
      exact Nat.lt_succ_self _
  | removeNetwork _ =>
    exact { h with
      networkNames := Db.nodup_map_filter _ h.networkNames
      networkIds := Db.nodup_map_filter _ h.networkIds
      networkIds_lt := fun net hnet => h.networkIds_lt net (List.mem_of_mem_filter hnet) }
  | createContainer =>
    refine { h with
      containerIds := Db.nodup_map_append_singleton h.containerIds fun other hother =>
        Nat.ne_of_lt (h.containerIds_lt other hother)
      containerIds_lt := ?_
      networkIds_lt := fun net hnet => Nat.lt_succ_of_lt (h.networkIds_lt net hnet) }
    intro c hc
    rcases List.mem_append.mp hc with hold | hnew
    · exact Nat.lt_succ_of_lt (h.containerIds_lt c hold)
    · rw [List.mem_singleton.mp hnew]
      exact Nat.lt_succ_self _
  | start _ _ _ => exact h.updateContainer fun _ => rfl
  | stop => exact h.updateContainer fun _ => rfl
  | remove =>
    exact { h with
      containerIds := Db.nodup_map_filter _ h.containerIds
      containerIds_lt := fun c hc => h.containerIds_lt c (List.mem_of_mem_filter hc) }

theorem nextId_le_of_step {d d' : Docker} {op : DockerOp} (hstep : DockerStep d op d') :
    d.nextId ≤ d'.nextId := by
  cases hstep <;> first | exact Nat.le_refl _ | exact Nat.le_succ _

/-- What becomes of a container that is not new: its specification stays, and it can join the network
    its specification names. -/
theorem WellFormed.of_container {d d' : Docker} {op : DockerOp} (h : d.WellFormed)
    (hstep : DockerStep d op d') {c : Container} (hmem : c ∈ d'.containers) (hold : c.id < d.nextId) :
    ∃ old ∈ d.containers, old.id = c.id ∧ c.spec = old.spec ∧
      (c.network = old.network ∨ ∃ net, d.findNetwork old.spec.networkName = some net ∧
        c.network = some net) := by
  cases hstep with
  | same | createNetwork _ | removeNetwork _ => exact ⟨c, hmem, rfl, rfl, Or.inl rfl⟩
  | createContainer =>
    rcases List.mem_append.mp hmem with hmem | hnew
    · exact ⟨c, hmem, rfl, rfl, Or.inl rfl⟩
    · rw [List.mem_singleton.mp hnew] at hold
      exact absurd hold (Nat.lt_irrefl _)
  | @start id c₀ net hfind hnet _ =>
    obtain ⟨old, hmemOld, ⟨hid, rfl⟩ | ⟨-, rfl⟩⟩ := mem_updateContainer.mp hmem
    · obtain ⟨hmem₀, hid₀⟩ := mem_of_findContainer_id hfind
      have hsame : old = c₀ := Db.eq_of_nodup_map h.containerIds hmemOld hmem₀ (hid.trans hid₀.symm)
      subst hsame
      exact ⟨old, hmemOld, rfl, rfl, Or.inr ⟨net, hnet, rfl⟩⟩
    · exact ⟨_, hmemOld, rfl, rfl, Or.inl rfl⟩
  | stop =>
    obtain ⟨old, hmemOld, ⟨-, rfl⟩ | ⟨-, rfl⟩⟩ := mem_updateContainer.mp hmem
    · exact ⟨old, hmemOld, rfl, rfl, Or.inl rfl⟩
    · exact ⟨_, hmemOld, rfl, rfl, Or.inl rfl⟩
  | remove => exact ⟨c, List.mem_of_mem_filter hmem, rfl, rfl, Or.inl rfl⟩

theorem WellFormed.exec {d : Docker} (h : d.WellFormed) (op : DockerOp) (choice : op.Choice) :
    (op.exec d choice).2.WellFormed :=
  h.step (op.exec_step d choice)

end Docker

end EdoPlugin
