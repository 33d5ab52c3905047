import EdoPlugin.Containers
import EdoPlugin.ServerFile

/-!
# Container names

`container_name_for` joins three parts of any length with the separator that a slug can contain, too.
The plugin sends the id of a challenge in decimal, for a user or a team; then every part ends where
its underscore stands, and a name and labels tell whose container it is and of which challenge.
-/

namespace EdoPlugin

variable {owner owner' : Owner}

/-! ## Names -/

/-- The types `resolve_owner` can answer. -/
def Owner.Known (owner : Owner) : Prop := owner.ownerType = "user" ∨ owner.ownerType = "team"

theorem slugChars_of_isDigit {inGap : Bool} {cs : List Char} (h : ∀ c ∈ cs, c.isDigit = true) :
    slugChars inGap cs = cs := by
  induction cs generalizing inGap with
  | nil => cases inGap <;> rfl
  | cons c cs ih =>
    have hc := h c List.mem_cons_self
    have hcs : ∀ c' ∈ cs, c'.isDigit = true := fun c' hmem => h c' (List.mem_cons_of_mem _ hmem)
    cases inGap <;> simp [slugChars, hc, ih hcs]

theorem stripUnderscores_of_not_mem {cs : List Char} (h : '_' ∉ cs) : stripUnderscores cs = cs := by
  have hkeep : ∀ l : List Char, '_' ∉ l → l.dropWhile (fun c => c == '_') = l := by
    intro l hl
    cases l with
    | nil => rfl
    | cons c l =>
      have hc : (c == '_') = false := by
        rw [beq_eq_false_iff_ne]
        rintro rfl
        exact hl List.mem_cons_self
      simp [hc]
  unfold stripUnderscores
  rw [hkeep cs h, hkeep _ (by simpa using h), List.reverse_reverse]

theorem toLower_of_isDigit {c : Char} (h : c.isDigit = true) : c.toLower = c := by
  have hupper : ¬ (c.val ≥ 'A'.val ∧ c.val ≤ 'Z'.val) := by
    rintro ⟨hge, -⟩
    simp only [Char.isDigit, Bool.and_eq_true, decide_eq_true_eq] at h
    have hle : c.val.toNat ≤ 57 := h.2
    have hge' : 65 ≤ c.val.toNat := hge
    omega
  simp only [Char.toLower, dif_neg hupper]

/-- A number is its own slug. -/
theorem slug_toString (n : Nat) : slug (toString n) = toString n := by
  have hdigits : ∀ c ∈ (toString n).toList, c.isDigit = true := fun _ hc => isDigit_of_mem_toString hc
  have hlower : (toString n).toList.map Char.toLower = (toString n).toList := by
    conv_rhs => rw [← List.map_id (toString n).toList]
    exact List.map_congr_left fun c hc => toLower_of_isDigit (hdigits c hc)
  have hgap : '_' ∉ (toString n).toList := fun h => absurd (hdigits '_' h) (by decide)
  unfold slug
  rw [hlower, slugChars_of_isDigit hdigits, stripUnderscores_of_not_mem hgap, String.ofList_toList]

/-- Two texts that agree agree after their first underscore. -/
theorem eq_after_underscore {as bs cs ds : List Char} (ha : '_' ∉ as) (hc : '_' ∉ cs)
    (h : as ++ '_' :: bs = cs ++ '_' :: ds) : as = cs ∧ bs = ds := by
  induction as generalizing cs with
  | nil =>
    cases cs with
    | nil => exact ⟨rfl, (List.cons.inj h).2⟩
    | cons c cs =>
      have hhead : '_' = c := (List.cons.inj h).1
      exact absurd (hhead ▸ List.mem_cons_self) hc
  | cons a as ih =>
    cases cs with
    | nil =>
      have hhead : a = '_' := (List.cons.inj h).1
      exact absurd (hhead ▸ List.mem_cons_self) ha
    | cons c cs =>
      obtain ⟨rfl, hrest⟩ := List.cons.inj h
      obtain ⟨rfl, rfl⟩ := ih (fun hmem => ha (List.mem_cons_of_mem _ hmem))
        (fun hmem => hc (List.mem_cons_of_mem _ hmem)) hrest
      exact ⟨rfl, rfl⟩

theorem toList_containerNameFor (n : Nat) (owner : Owner) :
    (containerNameFor (toString n) owner).toList = "edo_".toList ++ ((toString n).toList ++ '_' ::
      (owner.ownerType.toList ++ '_' :: (toString owner.ownerId).toList)) := by
  unfold containerNameFor
  rw [slug_toString]
  show ("edo_" ++ toString n ++ "_" ++ owner.ownerType ++ "_" ++ toString owner.ownerId).toList = _
  simp only [String.toList_append, List.append_assoc]
  rfl

/-- **A name identifies an instance.** -/
theorem containerNameFor_injective {n n' : Nat} (h : owner.Known) (h' : owner'.Known)
    (hname : containerNameFor (toString n) owner = containerNameFor (toString n') owner') :
    n = n' ∧ owner = owner' := by
  have hlist := congrArg String.toList hname
  rw [toList_containerNameFor, toList_containerNameFor, List.append_cancel_left_eq] at hlist
  have hdigits : ∀ m : Nat, '_' ∉ (toString m).toList := fun m hmem =>
    absurd (isDigit_of_mem_toString hmem) (by decide)
  obtain ⟨href, hrest⟩ := eq_after_underscore (hdigits n) (hdigits n') hlist
  have htype : ∀ {owner : Owner}, owner.Known → '_' ∉ owner.ownerType.toList := by
    rintro owner (hknown | hknown) <;> rw [hknown] <;> decide
  obtain ⟨hownerType, hownerId⟩ := eq_after_underscore (htype h) (htype h') hrest
  refine ⟨Nat.repr_inj.mp (String.toList_injective href), ?_⟩
  rw [Owner.mk.injEq]
  exact ⟨String.toList_injective hownerType, Int.repr_inj.mp (String.toList_injective hownerId)⟩

/-! ## Keys -/

/-- What the plugin asks the daemon to spawn: an instance of a challenge for an owner. -/
structure SpawnKey where
  owner : Owner
  challengeId : Nat
deriving DecidableEq, Repr

namespace SpawnKey

/-- `str(challenge_id)` -/
def challengeRef (key : SpawnKey) : String := toString key.challengeId

def name (key : SpawnKey) : String := containerNameFor key.challengeRef key.owner

/-- The key of its row in the daemon's table. -/
def rowKey (key : SpawnKey) : Owner × String := (key.owner, key.challengeRef)

theorem rowKey_injective : Function.Injective rowKey := by
  rintro ⟨owner, challengeId⟩ ⟨owner', challengeId'⟩ h
  obtain ⟨rfl, href⟩ := Prod.mk.inj h
  rw [SpawnKey.mk.injEq]
  exact ⟨rfl, Nat.repr_inj.mp href⟩

theorem name_injOn : Set.InjOn name {key | key.owner.Known} := by
  rintro ⟨owner, challengeId⟩ h ⟨owner', challengeId'⟩ h' hname
  obtain ⟨rfl, rfl⟩ := containerNameFor_injective h h' hname
  rfl

end SpawnKey

/-- What `spawn_instance` writes into the specification of a container for a key. -/
structure ContainerSpec.IssuedTo (spec : ContainerSpec) (key : SpawnKey) : Prop where
  known : key.owner.Known
  name : spec.name = key.name
  ownerType : spec.labels.lookup ownerTypeLabel = some key.owner.ownerType
  ownerId : spec.labels.lookup ownerIdLabel = some (toString key.owner.ownerId)
  challengeRef : spec.labels.lookup challengeLabel = some key.challengeRef

/-- The labels of the container name the owner. -/
def Container.belongsTo (c : Container) (owner : Owner) : Bool :=
  c.spec.labels.lookup ownerTypeLabel = some owner.ownerType ∧
    c.spec.labels.lookup ownerIdLabel = some (toString owner.ownerId)

/-- The labels of the container name the owner and the challenge. -/
def Container.hasKey (c : Container) (key : SpawnKey) : Bool :=
  c.belongsTo key.owner ∧ c.spec.labels.lookup challengeLabel = some key.challengeRef

namespace ContainerSpec.IssuedTo

variable {spec : ContainerSpec} {c : Container} {key key' : SpawnKey}

/-- The name of a container tells for what it was created. -/
theorem key_eq (h : spec.IssuedTo key') (hknown : key.owner.Known) (hname : spec.name = key.name) :
    key' = key := SpawnKey.name_injOn h.known hknown (h.name.symm.trans hname)

theorem belongsTo_iff (h : c.spec.IssuedTo key) : c.belongsTo owner = true ↔ key.owner = owner := by
  unfold Container.belongsTo
  rw [decide_eq_true_iff, h.ownerType, h.ownerId, Option.some_inj, Option.some_inj, Owner.mk.injEq]
  exact and_congr_right fun _ => Int.repr_inj

theorem hasKey (h : c.spec.IssuedTo key) : c.hasKey key = true :=
  decide_eq_true ⟨h.belongsTo_iff.mpr rfl, h.challengeRef⟩

end ContainerSpec.IssuedTo

theorem issuedTo_spec {plan : SpawnPlan} {ip : IPv4Address} {portMap : Option (List (String × Nat))}
    {key : SpawnKey} (hknown : key.owner.Known) (howner : plan.owner = key.owner)
    (href : plan.challengeRef = key.challengeRef) : (plan.spec ip portMap).IssuedTo key := by
  refine ⟨hknown, ?_, ?_, ?_, ?_⟩
  · show containerNameFor plan.challengeRef plan.owner = key.name
    rw [howner, href]
    rfl
  · rw [← howner]
    rfl
  · rw [← howner]
    rfl
  · rw [← href]
    rfl

end EdoPlugin
