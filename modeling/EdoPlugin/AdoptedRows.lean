import EdoPlugin.ContainerRecords
import EdoPlugin.DaemonReconcile

/-!
# The table after an adoption

What `adopt_untracked` makes of the table when Docker answers is a function of the table and of
Docker: the rows there were, and one row for each container that has none, read from its labels,
unless another row has its key.  A second adoption finds nothing to do.
-/

namespace EdoPlugin

open Interaction

variable {w w' : World} {db : Db} {c : Container} {cs : List Container}

/-! ## One container -/

/-- The address of the container, if it is on the network of its owner's octet. -/
def adoptedIp (db : Db) (owner : Owner) (c : Container) : Option IPv4Address :=
  let networkName := match db.getOctet owner with
    | some octet => bridgeName octet
    | none => ""
  if c.spec.networkName = networkName then c.ipAddress else none

/-- The row that the labels of a container give, or why they give none. -/
inductive LabelReading where
  | nobody
  | badNumber (err : PyErr)
  | row (row : Instance)
deriving DecidableEq, Repr

def readLabels (db : Db) (c : Container) : LabelReading :=
  match labelledIdentity c.spec.labels with
  | none => .nobody
  | some (ownerType, ownerId, challengeRef) =>
    match parseOwnerId ownerId with
    | .error err => .badNumber err
    | .ok id => .row (adoptedRow ⟨ownerType, id⟩ challengeRef c (adoptedIp db ⟨ownerType, id⟩ c))

/-- The table with the container adopted. -/
def Db.adopt (db : Db) (c : Container) : Db :=
  match readLabels db c with
  | .row row => (db.addInstance row).2
  | _ => db

@[simp] theorem Db.adopt_ownerOctets : (db.adopt c).ownerOctets = db.ownerOctets := by
  unfold adopt
  cases readLabels db c with
  | row row => rcases db.addInstance_cases row with ⟨heq, -⟩ | ⟨msg, heq⟩ <;> simp [heq]
  | _ => rfl

@[simp] theorem Db.adopt_peers : (db.adopt c).peers = db.peers := by
  unfold adopt
  cases readLabels db c with
  | row row => rcases db.addInstance_cases row with ⟨heq, -⟩ | ⟨msg, heq⟩ <;> simp [heq]
  | _ => rfl

/-- What the labels give depends on the octets only. -/
theorem readLabels_congr {db' : Db} (h : db'.ownerOctets = db.ownerOctets) :
    readLabels db' c = readLabels db c := by
  have hget : db'.getOctet = db.getOctet := by
    funext owner
    simp only [Db.getOctet, h]
  have hip : adoptedIp db' = adoptedIp db := by
    funext owner c
    simp only [adoptedIp, hget]
  simp only [readLabels, hip]

theorem containerId_of_readLabels {row : Instance} (h : readLabels db c = .row row) :
    row.containerId = c.id ∧ row.status = c.status := by
  unfold readLabels at h
  split at h
  · cases h
  · split at h
    · cases h
    · cases h
      exact ⟨rfl, rfl⟩

/-- Some row of the table has the id of the container or the key that its labels give. -/
def HasRival (db : Db) (c : Container) (row : Instance) : Prop :=
  ∃ other ∈ db.instances, other.containerId = c.id ∨ other.key = row.key

/-- A row is stored exactly when it has no rival. -/
theorem Db.adopt_cases (db : Db) (c : Container) :
    (∃ row, readLabels db c = .row row ∧ ¬ HasRival db c row ∧
      db.adopt c = { db with instances := db.instances ++ [row] }) ∨
    db.adopt c = db ∧ ∀ row, readLabels db c = .row row → HasRival db c row := by
  unfold adopt
  cases hread : readLabels db c with
  | row row =>
    have hid := (containerId_of_readLabels hread).1
    rcases db.addInstance_cases row with ⟨heq, hids, hkeys⟩ | ⟨msg, heq⟩
    · left
      refine ⟨row, rfl, ?_, by simp [heq]⟩
      rintro ⟨other, hmem, hsame | hsame⟩
      · exact hids other hmem (hsame.trans hid.symm)
      · exact hkeys other hmem hsame
    · right
      refine ⟨by simp [heq], ?_⟩
      rintro _ ⟨⟩
      by_contra hfree
      have hids : ¬ (db.instances.any fun r => r.containerId = row.containerId) = true := by
        rw [hid]
        simpa using fun other hmem hsame => hfree ⟨other, hmem, .inl hsame⟩
      have hkeys : ¬ (db.instances.any fun r => r.key = row.key) = true := by
        simpa using fun other hmem hsame => hfree ⟨other, hmem, .inr hsame⟩
      simp [addInstance, insertInstance, hids, hkeys] at heq
  | nobody | badNumber err =>
    right
    exact ⟨rfl, fun _ heq => by cases heq⟩

theorem parseOwnerId_error {text : String} {err : PyErr} (h : parseOwnerId text = .error err) :
    ∃ msg, err = .valueError msg := by
  unfold parseOwnerId at h
  split at h
  · cases h
  · cases h
    exact ⟨_, rfl⟩

/-- A label that should be a number is none. -/
def HasBadNumber (db : Db) (c : Container) : Prop := ∃ err, readLabels db c = .badNumber err

/-- One round of the loop, while Docker answers. -/
theorem wp_adoptOne_noFault (hfind : w.docker.findContainer (.id c.id) = some c) :
    wp (daemonSem noFault) (fun _ _ => True) (adoptOne c) (fun out w' =>
      ((∃ adopted, out = .ok adopted) ∧ ¬ HasBadNumber w.db c ∨
        ∃ msg, readLabels w.db c = .badNumber (.valueError msg) ∧ out = .error (.valueError msg)) ∧
      w' = { w with db := w.db.adopt c }) w := by
  unfold adoptOne HasBadNumber Db.adopt readLabels
  cases hidentity : labelledIdentity c.spec.labels with
  | none => exact ⟨.inl ⟨⟨_, rfl⟩, by simp⟩, rfl⟩
  | some identity =>
    obtain ⟨ownerType, idText, challengeRef⟩ := identity
    cases hid : parseOwnerId idText with
    | error err =>
      obtain ⟨msg, rfl⟩ := parseOwnerId_error hid
      simp only [hid]
      exact ⟨.inr ⟨msg, rfl, rfl⟩, rfl⟩
    | ok ownerId =>
      simp only [hid]
      apply wp_callDb trivial
      simp only [DbOp.exec]
      have hlive : ∀ networkName, wp (daemonSem noFault) (fun _ _ => True)
          (liveContainerIp c networkName) (fun out w' => out = .ok (c,
            if c.spec.networkName = networkName then c.ipAddress else none) ∧ w' = w) w := by
        intro networkName
        apply wp_containersGet trivial
        · intro found hfound
          rw [hfind] at hfound
          cases hfound
          by_cases hname : c.spec.networkName = networkName
          · simp [hname]
          · simp [hname]
        · intro msg hnone
          rw [hfind] at hnone
          cases hnone
        · intro msg hfault
          cases hfault
      apply wp_seq (hlive _)
      · rintro live w₁ ⟨hlive, rfl⟩
        have hip : live = (c, adoptedIp w₁.db ⟨ownerType, ownerId⟩ c) := by
          unfold adoptedIp
          cases hheld : w₁.db.getOctet ⟨ownerType, ownerId⟩ with
          | none =>
            rw [hheld] at hlive
            exact Except.ok.inj hlive
          | some octet =>
            rw [hheld] at hlive
            exact Except.ok.inj hlive
        rw [hip]
        generalize adoptedIp w₁.db ⟨ownerType, ownerId⟩ c = ip
        apply wp_callDb trivial
        rcases w₁.db.addInstance_cases (adoptedRow ⟨ownerType, ownerId⟩ challengeRef c ip) with
          ⟨heq, -⟩ | ⟨msg, heq⟩
        · simp only [DbOp.exec, heq]
          exact ⟨.inl ⟨⟨_, rfl⟩, by simp⟩, rfl⟩
        · simp only [DbOp.exec, heq]
          exact ⟨.inl ⟨⟨_, rfl⟩, by simp⟩, rfl⟩
      · rintro err w₁ ⟨h, -⟩
        cases h

/-! ## All of them -/

/-- The containers that adoption looks at. -/
def untracked (db : Db) (d : Docker) : List Container :=
  (d.containersList managedLabel).filter fun c =>
    !(db.instances.map Instance.containerId).contains c.id

def Db.adoptAll (db : Db) (cs : List Container) : Db := cs.foldl Db.adopt db

@[simp] theorem Db.adoptAll_ownerOctets : (db.adoptAll cs).ownerOctets = db.ownerOctets := by
  induction cs generalizing db with
  | nil => rfl
  | cons c cs ih => exact ih.trans Db.adopt_ownerOctets

@[simp] theorem Db.adoptAll_peers : (db.adoptAll cs).peers = db.peers := by
  induction cs generalizing db with
  | nil => rfl
  | cons c cs ih => exact ih.trans Db.adopt_peers

theorem hasBadNumber_congr {db' : Db} (h : db'.ownerOctets = db.ownerOctets) :
    HasBadNumber db' c ↔ HasBadNumber db c := by
  unfold HasBadNumber
  rw [readLabels_congr h]

/-- The adoption of these containers returned: all their numbers are numbers, and they are adopted.
    Or it raised the `ValueError` of one of them. -/
def AdoptionOf (cs : List Container) (w : World) : Except PyErr Nat → World → Prop
  | .ok _, w' => (∀ c ∈ cs, ¬ HasBadNumber w.db c) ∧ w' = { w with db := w.db.adoptAll cs }
  | .error err, _ => ∃ c ∈ cs, ∃ msg, readLabels w.db c = .badNumber err ∧ err = .valueError msg

theorem wp_adoptEach_noFault {knownIds : List ContainerId}
    (hfind : ∀ c ∈ cs, w.docker.findContainer (.id c.id) = some c) :
    wp (daemonSem noFault) (fun _ _ => True) (adoptEach knownIds cs)
      (AdoptionOf (cs.filter fun c => !knownIds.contains c.id) w) w := by
  induction cs generalizing w with
  | nil =>
    refine ⟨?_, rfl⟩
    intro c hc
    cases hc
  | cons c cs ih =>
    have hrest : ∀ other ∈ cs, w.docker.findContainer (.id other.id) = some other :=
      fun other hother => hfind other (List.mem_cons_of_mem _ hother)
    unfold adoptEach
    by_cases hknown : knownIds.contains c.id = true
    · rw [if_pos hknown, List.filter_cons_of_neg (by simpa using hknown)]
      exact ih hrest
    · rw [if_neg hknown, List.filter_cons_of_pos (by simpa using hknown)]
      apply wp_seq (wp_adoptOne_noFault (hfind c List.mem_cons_self))
      · rintro adopted w₁ ⟨⟨-, hnumber⟩ | ⟨msg, -, h⟩, rfl⟩
        · have hoctets : (w.db.adopt c).ownerOctets = w.db.ownerOctets := Db.adopt_ownerOctets
          apply wp_seq (ih (w := { w with db := w.db.adopt c }) hrest)
          · rintro count w₂ ⟨hnumbers, rfl⟩
            refine ⟨?_, rfl⟩
            intro other hother
            rcases List.mem_cons.mp hother with rfl | hlater
            · exact hnumber
            · exact fun hbad => hnumbers other hlater ((hasBadNumber_congr hoctets).mpr hbad)
          · rintro err w₂ ⟨other, hother, msg, hbad, rfl⟩
            rw [readLabels_congr hoctets] at hbad
            exact ⟨other, List.mem_cons_of_mem _ hother, msg, hbad, rfl⟩
        · cases h
      · rintro err w₁ ⟨⟨⟨adopted, h⟩, -⟩ | ⟨msg, hbad, h⟩, -⟩
        · cases h
        · cases h
          exact ⟨c, List.mem_cons_self, msg, hbad, rfl⟩

/-- **The adoption, while Docker answers.** -/
theorem wp_adoptUntracked_noFault (hdocker : w.docker.WellFormed) :
    wp (daemonSem noFault) (fun _ _ => True) adoptUntracked
      (AdoptionOf (untracked w.db w.docker) w) w := by
  refine wp_dockerClient trivial ?_ fun _ hfault => by cases hfault
  apply wp_callDb trivial
  apply wp_callDocker trivial
  rintro choice ⟨⟩
  apply wp_adoptEach_noFault
  intro c hc
  exact hdocker.findContainer_id (List.mem_of_mem_filter hc)

/-- The rows that there were stay. -/
theorem Db.subset_adoptAll (db : Db) (cs : List Container) :
    db.instances ⊆ (db.adoptAll cs).instances := by
  induction cs generalizing db with
  | nil => exact List.Subset.refl _
  | cons c cs ih =>
    apply List.Subset.trans _ (ih (db.adopt c))
    rcases db.adopt_cases c with ⟨row, -, -, heq⟩ | ⟨heq, -⟩
    · rw [heq]
      exact List.subset_append_left _ _
    · rw [heq]
      exact List.Subset.refl _

/-- Afterwards the rows of all these containers have a rival: themselves, or another. -/
theorem Db.hasRival_adoptAll {row : Instance} (hc : c ∈ cs) (hrow : readLabels db c = .row row) :
    HasRival (db.adoptAll cs) c row := by
  induction cs generalizing db with
  | nil => cases hc
  | cons first cs ih =>
    rcases List.mem_cons.mp hc with rfl | hlater
    · have hkept := (db.adopt c).subset_adoptAll cs
      rcases db.adopt_cases c with ⟨new, hnew, -, heq⟩ | ⟨heq, hrival⟩
      · rw [hrow] at hnew
        cases hnew
        refine ⟨row, hkept ?_, .inl (containerId_of_readLabels hrow).1⟩
        rw [heq]
        exact List.mem_append_right _ (List.mem_singleton.mpr rfl)
      · obtain ⟨other, hother, hsame⟩ := hrival row hrow
        refine ⟨other, hkept ?_, hsame⟩
        rw [heq]
        exact hother
    · apply ih hlater
      rw [readLabels_congr Db.adopt_ownerOctets]
      exact hrow

theorem Db.adoptAll_eq_self (h : ∀ c ∈ cs, db.adopt c = db) : db.adoptAll cs = db := by
  induction cs with
  | nil => rfl
  | cons c cs ih =>
    have hfirst : db.adoptAll (c :: cs) = (db.adopt c).adoptAll cs := rfl
    rw [hfirst, h c List.mem_cons_self]
    exact ih fun other hother => h other (List.mem_cons_of_mem _ hother)

/-- **A second adoption finds nothing to do.** -/
theorem Db.adoptAll_again {d : Docker} (db : Db) :
    (db.adoptAll (untracked db d)).adoptAll (untracked (db.adoptAll (untracked db d)) d) =
      db.adoptAll (untracked db d) := by
  apply Db.adoptAll_eq_self
  intro c hc
  obtain ⟨hlisted, hnew⟩ := List.mem_filter.mp hc
  rcases (db.adoptAll (untracked db d)).adopt_cases c with ⟨row, hrow, hfree, -⟩ | ⟨heq, -⟩
  · refine absurd (Db.hasRival_adoptAll (List.mem_filter.mpr ⟨hlisted, ?_⟩) ?_) hfree
    · simp only [Bool.not_eq_true', List.contains_eq_mem, decide_eq_false_iff_not] at hnew ⊢
      exact fun hmem => hnew (List.map_subset _ (db.subset_adoptAll _) hmem)
    · rw [← hrow]
      exact readLabels_congr (Db.adoptAll_ownerOctets).symm
  · exact heq

/-- The labels of a container that was ordered give a row for the order. -/
theorem readLabels_of_fulfils (db : Db) {order : SpawnOrder} (h : c.spec.Fulfils order)
    (hnamed : order.Named) :
    ∃ row, readLabels db c = .row row ∧ row.key = (order.owner, order.challengeRef) := by
  unfold readLabels
  rw [h.identity hnamed]
  simp only [parseOwnerId_toString]
  exact ⟨_, rfl, rfl⟩

theorem World.Recorded.untracked_empty {orders : SpawnOrder → Prop} (h : w.Recorded orders) :
    untracked Db.empty w.docker = w.docker.containers := by
  have hmanaged : w.docker.containersList managedLabel = w.docker.containers := by
    apply List.filter_eq_self.mpr
    intro c hc
    obtain ⟨order, -, hfulfils⟩ := h.containers c hc
    rw [hfulfils.managed]
    rfl
  unfold untracked
  rw [hmanaged]
  apply List.filter_eq_self.mpr
  intro c _
  rfl

end EdoPlugin
