import EdoPlugin.ServiceProtocol

/-!
# What a container says about its instance

The daemon may be killed between any two calls of any of its handlers, and it may lose its database.
What remains is Docker: every container carries, in its name and its labels, what a request ordered,
and whatever row the daemon has of a container agrees with that.  An id is never given twice, so that
the agreement outlives the container.
-/

namespace EdoPlugin

open Interaction

/-! ## Orders -/

/-- What a spawn request orders. -/
structure SpawnOrder where
  owner : Owner
  challengeRef : String
  profile : SecurityProfile
  publishPorts : Bool
deriving DecidableEq, Repr

def Request.order? : Request → Option SpawnOrder
  | .containerEnsureInstance owner challengeRef _ security _ publishPorts =>
    some ⟨owner, challengeRef, security, publishPorts⟩
  | _ => none

/-- Adoption takes an empty label for a missing one. -/
def SpawnOrder.Named (order : SpawnOrder) : Prop :=
  order.owner.ownerType ≠ "" ∧ order.challengeRef ≠ ""

instance (order : SpawnOrder) : Decidable order.Named :=
  inferInstanceAs (Decidable (_ ∧ _))

/-- The container is the one that was ordered: its image, its name and labels, the hardening of its
    profile, and no host port unless ports were to be published.  Its network has the name of some
    octet. -/
structure ContainerSpec.Fulfils (spec : ContainerSpec) (order : SpawnOrder) : Prop where
  image : spec.image = imageTagFor order.challengeRef
  name : spec.name = containerNameFor order.challengeRef order.owner
  managed : spec.labels.lookup managedLabel = some "true"
  ownerType : spec.labels.lookup ownerTypeLabel = some order.owner.ownerType
  ownerId : spec.labels.lookup ownerIdLabel = some (toString order.owner.ownerId)
  challengeRef : spec.labels.lookup challengeLabel = some order.challengeRef
  network : ∃ octet, spec.networkName = bridgeName octet
  hostConfig : ∃ portMap, spec.hostConfig = buildSecureHostConfig order.profile portMap ∧
    (order.publishPorts = false → portMap = none)

/-- The row agrees with what the name and the labels of its container say. -/
structure Instance.RecordedIn (row : Instance) (spec : ContainerSpec) : Prop where
  name : row.containerName = spec.name
  identity : ∃ ownerId, parseOwnerId ownerId = .ok row.owner.ownerId ∧
    labelledIdentity spec.labels = some (row.owner.ownerType, ownerId, row.challengeRef)
  ports : row.ports = splitPorts ((spec.labels.lookup portsLabel).getD "")
  expiresAt : row.expiresAt.getD "" = (spec.labels.lookup expiresLabel).getD ""
  expires : row.expiresAt ≠ some ""

/-! ## Labels -/

/-- A port as Docker writes it, such as `8080/tcp`. -/
def IsPortText (port : String) : Prop := port ≠ "" ∧ ',' ∉ port.toList

theorem toList_intercalate_comma (port : String) (ports : List String) :
    (",".intercalate (port :: ports)).toList =
      port.toList ++ ports.flatMap fun other => ',' :: other.toList := by
  induction ports generalizing port with
  | nil => simp
  | cons other ports ih =>
    rw [String.intercalate_cons_cons, String.toList_append, String.toList_append, ih]
    simp

section Split

variable {sep : Char} {cs rest : List Char}

theorem splitChars_of_notMem (h : sep ∉ cs) : splitChars sep cs = [cs] := by
  induction cs with
  | nil => rfl
  | cons c cs ih =>
    rw [List.mem_cons, not_or] at h
    simp [splitChars, Ne.symm h.1, ih h.2]

/-- What stands before a separator is the first word. -/
theorem splitChars_append (h : sep ∉ cs) :
    splitChars sep (cs ++ sep :: rest) = cs :: splitChars sep rest := by
  induction cs with
  | nil => simp [splitChars]
  | cons c cs ih =>
    rw [List.mem_cons, not_or] at h
    simp [splitChars, Ne.symm h.1, ih h.2]

end Split

/-- The words between the commas are the ports. -/
theorem splitChars_ports {port : String} {ports : List String} (hport : ',' ∉ port.toList)
    (hports : ∀ other ∈ ports, ',' ∉ other.toList) :
    splitChars ',' (port.toList ++ ports.flatMap fun other => ',' :: other.toList) =
      (port :: ports).map String.toList := by
  induction ports generalizing port with
  | nil => simp [splitChars_of_notMem hport]
  | cons other ports ih =>
    rw [List.flatMap_cons, List.cons_append, splitChars_append hport,
      ih (hports other List.mem_cons_self) fun p hp => hports p (List.mem_cons_of_mem _ hp)]
    rfl

/-- **The label of the ports is read back.** -/
theorem splitPorts_intercalate {ports : List String} (h : ∀ port ∈ ports, IsPortText port) :
    splitPorts (",".intercalate ports) = ports := by
  cases ports with
  | nil => rfl
  | cons port ports =>
    unfold splitPorts
    rw [toList_intercalate_comma, splitChars_ports (h port List.mem_cons_self).2
      fun other hother => (h other (List.mem_cons_of_mem _ hother)).2, List.map_map]
    have hback : (String.ofList ∘ String.toList : String → String) = id := by
      funext text
      exact String.ofList_toList
    rw [hback, List.map_id]
    apply List.filter_eq_self.mpr
    intro other hother
    exact decide_eq_true (h other hother).1

theorem toString_int_ne_empty (n : Int) : toString n ≠ "" := by
  intro hempty
  have hlist := congrArg String.toList hempty
  cases n with
  | ofNat m =>
    have hdigits : (toString (Int.ofNat m)).toList = Nat.toDigits 10 m := by
      show (String.ofList (Nat.toDigits 10 m)).toList = _
      rw [String.toList_ofList]
    rw [hdigits] at hlist
    exact Nat.toDigits_ne_nil hlist
  | negSucc m =>
    have hsign : toString (Int.negSucc m) = "-" ++ toString (m + 1) := rfl
    rw [hsign, String.toList_append] at hlist
    cases hlist

section Orders

variable {spec : ContainerSpec} {order : SpawnOrder}

/-- The identity is read back from the labels. -/
theorem ContainerSpec.Fulfils.identity (h : spec.Fulfils order) (hnamed : order.Named) :
    labelledIdentity spec.labels =
      some (order.owner.ownerType, toString order.owner.ownerId, order.challengeRef) := by
  unfold labelledIdentity
  simp only [h.ownerType, h.ownerId, h.challengeRef, Option.getD_some]
  rw [if_pos ⟨hnamed.1, toString_int_ne_empty _, hnamed.2⟩]

theorem SpawnPlan.fulfils {plan : SpawnPlan} (ip : IPv4Address)
    {portMap : Option (List (String × Nat))} (howner : plan.owner = order.owner)
    (href : plan.challengeRef = order.challengeRef) (hprofile : plan.profile = order.profile)
    (hports : order.publishPorts = false → portMap = none) :
    (plan.spec ip portMap).Fulfils order := by
  constructor
  · rw [← href]
    rfl
  · rw [← howner, ← href]
    rfl
  · rfl
  · rw [← howner]
    rfl
  · rw [← howner]
    rfl
  · rw [← href]
    rfl
  · exact ⟨plan.octet, rfl⟩
  · exact ⟨portMap, by rw [← hprofile]; rfl, hports⟩

end Orders

/-! ## What a thread has seen -/

/-- The containers that a thread has created or listed, with their specifications. -/
abbrev Seen : Type := List (ContainerId × ContainerSpec)

namespace Seen

def next (seen : Seen) : (op : DaemonOp) → op.Res → Seen
  | .docker (.createContainer spec), .ok id => (id, spec) :: seen
  | .docker (.containersList _), .ok containers =>
    (containers.map fun c => (c.id, c.spec)) ++ seen
  | _, _ => seen

/-- A thread creates what was ordered, and stores rows of what it has seen. -/
def admits (orders : SpawnOrder → Prop) (seen : Seen) : DaemonOp → Prop
  | .docker (.createContainer spec) => ∃ order, orders order ∧ spec.Fulfils order
  | .db (.addInstance row) => ∃ spec, (row.containerId, spec) ∈ seen ∧ row.RecordedIn spec
  | _ => True

/-- A container that was seen is found as it was seen. -/
def expected (seen : Seen) : (op : DaemonOp) → op.Res → Prop
  | .docker (.containersGet (.id id)), .ok c =>
    c.id = id ∧ ∀ spec, (id, spec) ∈ seen → c.spec = spec
  | .docker (.imagesGet _), .ok ports => ∀ port ∈ ports, IsPortText port
  | .host (.isoExpiry _), text => text ≠ ""
  | _, _ => True

/-- What the thread has seen is what there is under these ids, if anything. -/
def Holds (seen : Seen) (w : World) : Prop :=
  ∀ entry ∈ seen, entry.1 < w.docker.nextId ∧
    ∀ c ∈ w.docker.containers, c.id = entry.1 → c.spec = entry.2

end Seen

/-- The texts that Docker and the clock answer with are texts. -/
def legible : Policy
  | .docker (.imagesGet _), exposed => ∀ ports, exposed = .ok ports → ∀ port ∈ ports, IsPortText port
  | .host (.isoExpiry _), text => text ≠ ""
  | _, _ => True

/-- Docker has nothing but what was ordered, and the table agrees with it. -/
structure World.Recorded (orders : SpawnOrder → Prop) (w : World) : Prop where
  docker : w.docker.WellFormed
  names : (w.docker.containers.map fun c => c.spec.name).Nodup
  containers : ∀ c ∈ w.docker.containers, ∃ order, orders order ∧ c.spec.Fulfils order
  rows : ∀ row ∈ w.db.instances, row.containerId < w.docker.nextId ∧
    ∀ c ∈ w.docker.containers, c.id = row.containerId → row.RecordedIn c.spec

/-! ## One call -/

section Calls

variable {orders : SpawnOrder → Prop} {seen : Seen} {w w' : World}

/-- A row is new, or an old one in another status. -/
theorem Db.instances_exec_status {db : Db} {op : DbOp} {row : Instance}
    (hrow : row ∈ (op.exec db).2.instances) : op = .addInstance row ∨
      ∃ old ∈ db.instances, ∃ status, row = { old with status := status } := by
  cases op with
  | addInstance new =>
    rcases db.addInstance_cases new with ⟨heq, -⟩ | ⟨msg, heq⟩
    · simp only [DbOp.exec, heq] at hrow
      rcases List.mem_append.mp hrow with hold | hnew
      · exact Or.inr ⟨row, hold, row.status, rfl⟩
      · rw [List.mem_singleton.mp hnew]
        exact Or.inl rfl
    · simp only [DbOp.exec, heq] at hrow
      exact Or.inr ⟨row, hrow, row.status, rfl⟩
  | removeInstance containerId =>
    exact Or.inr ⟨row, List.mem_of_mem_filter hrow, row.status, rfl⟩
  | updateInstanceStatus containerId status =>
    obtain ⟨old, hold, rfl⟩ := List.mem_map.mp hrow
    right
    by_cases hid : old.containerId = containerId
    · rw [if_pos hid]
      exact ⟨old, hold, status, rfl⟩
    · rw [if_neg hid]
      exact ⟨old, hold, old.status, rfl⟩
  | allocateOctet owner =>
    simp only [DbOp.exec, allocateOctet_eq] at hrow
    refine Or.inr ⟨row, ?_, row.status, rfl⟩
    cases hown : db.getOctet owner with
    | some octet => simpa [hown] using hrow
    | none => cases hfree : db.firstFreeOctet <;> simpa [hown, hfree] using hrow
  | allocatePeer owner username publicKey candidateIps privateKey =>
    simp only [DbOp.exec, allocatePeer_eq] at hrow
    refine Or.inr ⟨row, ?_, row.status, rfl⟩
    cases hip : db.firstFreeIp candidateIps with
    | none => simpa [hip] using hrow
    | some ip => cases hpeer : db.getPeer username <;> simpa [hip, hpeer] using hrow
  | _ => exact Or.inr ⟨row, hrow, row.status, rfl⟩

theorem Instance.RecordedIn.withStatus {row : Instance} {spec : ContainerSpec} {status : Status}
    (h : row.RecordedIn spec) : ({ row with status := status } : Instance).RecordedIn spec :=
  ⟨h.name, h.identity, h.ports, h.expiresAt, h.expires⟩

/-- The names stay, or go with their containers. -/
theorem DockerStep.names_sublist {d d' : Docker} {op : DockerOp} (hstep : DockerStep d op d')
    (hop : ¬ op.creates) : (d'.containers.map fun c => c.spec.name).Sublist
      (d.containers.map fun c => c.spec.name) := by
  have hupdate : ∀ (id : ContainerId) (f : Container → Container), (∀ c, (f c).spec = c.spec) →
      ((d.updateContainer id f).containers.map fun c => c.spec.name) =
        d.containers.map fun c => c.spec.name := by
    intro id f hf
    unfold Docker.updateContainer
    rw [List.map_map]
    apply List.map_congr_left
    intro c _
    by_cases hid : c.id = id
    · simp [hid, hf]
    · simp [hid]
  cases hstep with
  | same | createNetwork _ | removeNetwork _ => exact List.Sublist.refl _
  | createContainer => exact absurd trivial hop
  | start _ _ _ =>
    rw [hupdate]
    exact fun c => rfl
  | stop =>
    rw [hupdate]
    exact fun c => rfl
  | remove => exact List.filter_sublist.map _

namespace World.Recorded

/-- Other parts of the world do not matter. -/
theorem congr (h : w.Recorded orders) (hinstances : w'.db.instances = w.db.instances)
    (hdocker : w'.docker = w.docker) : w'.Recorded orders := by
  constructor
  · rw [hdocker]
    exact h.docker
  · rw [hdocker]
    exact h.names
  · rw [hdocker]
    exact h.containers
  · rw [hdocker, hinstances]
    exact h.rows

/-- What becomes of the containers without a creation. -/
theorem docker_kept {d : Docker} (h : w.Recorded orders) (hd : d.WellFormed)
    (hnames : (d.containers.map fun c => c.spec.name).Sublist
      (w.docker.containers.map fun c => c.spec.name))
    (hnextId : w.docker.nextId ≤ d.nextId)
    (hold : ∀ c ∈ d.containers, ∃ old ∈ w.docker.containers, old.id = c.id ∧ old.spec = c.spec) :
    ({ w with docker := d } : World).Recorded orders := by
  refine ⟨hd, h.names.sublist hnames, ?_, ?_⟩
  · intro c hc
    obtain ⟨old, hmem, -, hspec⟩ := hold c hc
    rw [← hspec]
    exact h.containers old hmem
  · intro row hrow
    obtain ⟨hlt, hrecorded⟩ := h.rows row hrow
    refine ⟨Nat.lt_of_lt_of_le hlt hnextId, ?_⟩
    intro c hc hid
    obtain ⟨old, hmem, holdId, hspec⟩ := hold c hc
    rw [← hspec]
    exact hrecorded old hmem (holdId.trans hid)

/-- A new container is a container that was ordered, and no row names its id yet. -/
theorem create {spec : ContainerSpec} (h : w.Recorded orders)
    (hspec : ∃ order, orders order ∧ spec.Fulfils order)
    (hfree : w.docker.findContainer (.name spec.name) = none) :
    ({ w with docker := { w.docker with
        containers := w.docker.containers ++ [⟨w.docker.nextId, spec, .created, none, none⟩]
        nextId := w.docker.nextId + 1 } } : World).Recorded orders := by
  refine ⟨h.docker.step .createContainer, ?_, ?_, ?_⟩
  · apply Db.nodup_map_append_singleton h.names
    simpa [Docker.findContainer] using hfree
  · intro c hc
    rcases List.mem_append.mp hc with hmem | hnew
    · exact h.containers c hmem
    · rw [List.mem_singleton.mp hnew]
      exact hspec
  · intro row hrow
    obtain ⟨hlt, hrecorded⟩ := h.rows row hrow
    refine ⟨Nat.lt_succ_of_lt hlt, ?_⟩
    intro c hc hid
    rcases List.mem_append.mp hc with hmem | hnew
    · exact hrecorded c hmem hid
    · rw [List.mem_singleton.mp hnew] at hid
      exact absurd hid.symm (Nat.ne_of_lt hlt)

end World.Recorded

/-- What there was of other threads' containers is as they saw it. -/
theorem Seen.Holds.kept {d : Docker} (h : seen.Holds w) (hnextId : w.docker.nextId ≤ d.nextId)
    (hold : ∀ c ∈ d.containers, c.id < w.docker.nextId →
      ∃ old ∈ w.docker.containers, old.id = c.id ∧ old.spec = c.spec) :
    seen.Holds { w with docker := d } := by
  intro entry hentry
  obtain ⟨hlt, hspec⟩ := h entry hentry
  refine ⟨Nat.lt_of_lt_of_le hlt hnextId, ?_⟩
  intro c hc hid
  obtain ⟨old, hmem, holdId, holdSpec⟩ := hold c hc (hid ▸ hlt)
  rw [← holdSpec]
  exact hspec old hmem (holdId.trans hid)

theorem Seen.Holds.docker_exec {op : DockerOp} {choice : op.Choice} (h : seen.Holds w)
    (hdocker : w.docker.WellFormed) :
    seen.Holds { w with docker := (op.exec w.docker choice).2 } := by
  have hstep := DockerOp.exec_step w.docker op choice
  apply h.kept (Docker.nextId_le_of_step hstep)
  intro c hc hlt
  obtain ⟨old, hmem, hid, hspec, -⟩ := hdocker.of_container hstep hc hlt
  exact ⟨old, hmem, hid, hspec.symm⟩

/-- Every call of Docker leaves nothing but what was ordered. -/
theorem World.Recorded.docker_exec {op : DockerOp} {choice : op.Choice} (h : w.Recorded orders)
    (hadmits : seen.admits orders (.docker op)) :
    ({ w with docker := (op.exec w.docker choice).2 } : World).Recorded orders := by
  have hstep := DockerOp.exec_step w.docker op choice
  have hwellFormed := h.docker.step hstep
  by_cases hop : op.creates
  · cases op with
    | createContainer spec =>
      cases choice with
      | some msg => exact h
      | none =>
        simp only [DockerOp.exec, failing, Docker.createContainer]
        cases hfind : w.docker.findContainer (.name spec.name) with
        | some other => exact h
        | none => exact h.create hadmits hfind
    | _ => exact hop.elim
  · apply h.docker_kept hwellFormed _ (Docker.nextId_le_of_step hstep)
    · exact fun c hc => hstep.old_container hop hc
    · exact hstep.names_sublist hop

/-- What a thread sees is there. -/
theorem Seen.Holds.docker_next {op : DockerOp} {choice : op.Choice} (h : seen.Holds w)
    (hdocker : w.docker.WellFormed) : (seen.next (.docker op) (op.exec w.docker choice).1).Holds
      { w with docker := (op.exec w.docker choice).2 } := by
  have hkept : seen.Holds { w with docker := (op.exec w.docker choice).2 } := h.docker_exec hdocker
  cases op with
  | createContainer spec =>
    cases choice with
    | some msg => exact hkept
    | none =>
      simp only [DockerOp.exec, failing, Docker.createContainer] at hkept ⊢
      cases hfind : w.docker.findContainer (.name spec.name) with
      | some other =>
        simp only [hfind] at hkept ⊢
        exact hkept
      | none =>
        simp only [hfind] at hkept ⊢
        intro entry hentry
        rcases List.mem_cons.mp hentry with rfl | hold
        · refine ⟨Nat.lt_succ_self _, ?_⟩
          intro c hc hid
          rcases List.mem_append.mp hc with hmem | hnew
          · exact absurd hid (Nat.ne_of_lt (hdocker.containerIds_lt c hmem))
          · rw [List.mem_singleton.mp hnew]
        · exact hkept entry hold
  | containersList label =>
    cases choice with
    | some msg => exact hkept
    | none =>
      intro entry hentry
      rcases List.mem_append.mp hentry with hlisted | hold
      · obtain ⟨c, hc, rfl⟩ := List.mem_map.mp hlisted
        have hmem : c ∈ w.docker.containers := List.mem_of_mem_filter hc
        refine ⟨hdocker.containerIds_lt c hmem, ?_⟩
        intro other hother hid
        rw [Db.eq_of_nodup_map hdocker.containerIds hother hmem hid]
      · exact hkept entry hold
  | _ => exact hkept

/-- The answers of Docker are the ones that a thread expects. -/
theorem Seen.Holds.expected_docker {op : DockerOp} {choice : op.Choice} (h : seen.Holds w)
    (hpolicy : legible (.docker op) choice) :
    seen.expected (.docker op) (op.exec w.docker choice).1 := by
  cases op with
  | containersGet ref =>
    cases ref with
    | name name => trivial
    | id id =>
      cases hfound : (DockerOp.exec w.docker (.containersGet (.id id)) choice).1 with
      | error err => trivial
      | ok c =>
        obtain ⟨hmem, hid⟩ :=
          Docker.mem_of_findContainer_id (DockerOp.findContainer_of_ok hfound)
        exact ⟨hid, fun spec hspec => (h _ hspec).2 c hmem hid⟩
  | imagesGet tag =>
    cases choice with
    | error err => trivial
    | ok ports => exact hpolicy ports rfl
  | _ => trivial

theorem World.Recorded.db_exec {op : DbOp} (h : w.Recorded orders) (hseen : seen.Holds w)
    (hadmits : seen.admits orders (.db op)) :
    ({ w with db := (op.exec w.db).2 } : World).Recorded orders := by
  refine ⟨h.docker, h.names, h.containers, ?_⟩
  intro row hrow
  rcases Db.instances_exec_status hrow with rfl | ⟨old, hold, status, rfl⟩
  · obtain ⟨spec, hspec, hrecorded⟩ := hadmits
    obtain ⟨hlt, hsame⟩ := hseen _ hspec
    refine ⟨hlt, ?_⟩
    intro c hc hid
    rw [hsame c hc hid]
    exact hrecorded
  · obtain ⟨hlt, hrecorded⟩ := h.rows old hold
    exact ⟨hlt, fun c hc hid => (hrecorded c hc hid).withStatus⟩

/-- **One call.**  Whatever a thread may do keeps the records, what it learns is true, and what others
    have seen stays true. -/
theorem World.Recorded.sem {op : DaemonOp} {res : op.Res} (h : w.Recorded orders)
    (hseen : seen.Holds w) (hadmits : seen.admits orders op) (hsem : daemonSem legible w op res w') :
    seen.expected op res ∧ w'.Recorded orders ∧ (seen.next op res).Holds w' ∧
      ∀ other : Seen, other.Holds w → other.Holds w' := by
  obtain ⟨choice, hpolicy, hexec⟩ := hsem
  cases op with
  | db op =>
    cases hexec
    exact ⟨trivial, h.db_exec hseen hadmits, hseen, fun _ hother => hother⟩
  | docker op =>
    cases hexec
    exact ⟨hseen.expected_docker hpolicy, h.docker_exec hadmits, hseen.docker_next h.docker,
      fun _ hother => hother.docker_exec h.docker⟩
  | filter op | wg op =>
    cases hexec
    exact ⟨trivial, h.congr rfl rfl, hseen, fun _ hother => hother⟩
  | host op =>
    obtain ⟨result, hresult, hlast⟩ := Option.map_eq_some_iff.mp hexec
    cases hlast
    refine ⟨?_, h.congr rfl rfl, hseen, fun _ hother => hother⟩
    cases op with
    | isoExpiry ttlSeconds =>
      cases hresult
      exact hpolicy
    | _ => trivial

end Calls

/-! ## The parts of a handler -/

section Programs

variable {orders : SpawnOrder → Prop} {seen : Seen} {α : Type} {env : DaemonEnv}
  {order : SpawnOrder}

abbrev KeepsRecords (orders : SpawnOrder → Prop) (p : Daemon α) (P : α → Seen → Prop) (seen : Seen) :
    Prop :=
  Conforms (E := daemonEffect) Seen.expected (Seen.admits orders) Seen.next p (returning P) seen

/-- The calls that a thread may make whatever it has seen. -/
def leavesRecords : DaemonOp → Prop
  | .docker (.createContainer _) | .db (.addInstance _) => False
  | _ => True

theorem Seen.admits_plain {op : DaemonOp} (h : leavesRecords op) : seen.admits orders op := by
  cases op with
  | db op => cases op <;> trivial
  | docker op => cases op <;> trivial
  | filter op | wg op | host op => trivial

theorem Seen.subset_next (op : DaemonOp) (res : op.Res) : seen ⊆ seen.next op res := by
  unfold Seen.next
  split
  · exact List.subset_cons_self _ _
  · exact List.subset_append_right _ _
  · exact List.Subset.refl _

/-- Nothing that was seen is forgotten. -/
theorem records_plain {p : Daemon α} (hp : CallsOnly leavesRecords p) :
    KeepsRecords orders p (fun _ seen' => seen ⊆ seen') seen := by
  suffices haux : ∀ start : Seen, start ⊆ seen →
      KeepsRecords orders p (fun _ seen' => start ⊆ seen') seen from
    haux seen (List.Subset.refl _)
  intro start hstart
  induction hp generalizing seen with
  | ret => exact hstart
  | raise => trivial
  | @call op rest hop _ ih =>
    refine Conforms.call (Seen.admits_plain hop) fun res _ => ?_
    exact ih res (List.Subset.trans hstart (Seen.subset_next op res))

theorem records_any {p : Daemon α} (hp : CallsOnly leavesRecords p) :
    KeepsRecords orders p (fun _ _ => True) seen := by
  apply wp_mono (records_plain hp)
  intro out _ _
  cases out <;> trivial

theorem leavesRecords_of_quietCall (op : DaemonOp) (h : quietCall op) : leavesRecords op := by
  cases op with
  | db op => cases op <;> first | exact h.elim | trivial
  | docker op => cases op <;> first | exact h.elim | trivial
  | filter op | wg op | host op => trivial

theorem leavesRecords_of_networkCall (op : DaemonOp) (h : networkCall op) : leavesRecords op := by
  unfold networkCall at h
  split at h <;> trivial

theorem leavesRecords_of_readingCall (op : DaemonOp) (h : readingCall op) : leavesRecords op := by
  unfold readingCall at h
  split at h <;> trivial

theorem leavesRecords_of_allocationRead (op : DaemonOp) (h : allocationRead op) :
    leavesRecords op := by
  unfold allocationRead at h
  split at h <;> trivial

theorem leavesRecords_of_auxiliaryCall (op : DaemonOp) (h : auxiliaryCall op) : leavesRecords op :=
  leavesRecords_of_quietCall op (quietCall_of_auxiliaryCall op h)

/-- The container that has been started was created for this specification. -/
theorem records_startContainer {spec : ContainerSpec}
    (hspec : ∃ order, orders order ∧ spec.Fulfils order) :
    KeepsRecords orders (startContainer spec) (fun result seen' => ∀ c, result = .ok c →
      (c.id, spec) ∈ seen') seen := by
  refine Conforms.perform hspec fun created _ => ?_
  cases created with
  | error err => exact fun _ h => by cases h
  | ok id =>
    refine Conforms.perform trivial fun started _ => ?_
    cases started with
    | error err => exact fun _ h => by cases h
    | ok _ =>
      refine Conforms.call trivial fun found hfound => ?_
      cases found with
      | error err => exact fun _ h => by cases h
      | ok c =>
        obtain ⟨hid, -⟩ := hfound
        rintro _ ⟨⟩
        rw [hid]
        exact List.mem_cons_self

/-- Ports are mapped only when they are to be published. -/
theorem records_attemptPorts {plan : SpawnPlan} {triedPorts : List Nat} :
    KeepsRecords orders (attemptPorts env plan triedPorts) (fun ports _ => ∀ portMap,
      ports = .ok portMap →
      plan.publishPorts = false → portMap = none) seen := by
  unfold attemptPorts
  by_cases hpublish : plan.publishPorts = true
  · apply wp_mono (records_any (callsOnly_attemptPorts.mono leavesRecords_of_allocationRead))
    rintro (err | ports) _ _
    · trivial
    · intro portMap _ hnot
      rw [hpublish] at hnot
      cases hnot
  · simp only [hpublish, Bool.false_and]
    rintro portMap ⟨⟩ _
    rfl

theorem records_spawnAttempts {plan : SpawnPlan} (horder : orders order)
    (howner : plan.owner = order.owner) (href : plan.challengeRef = order.challengeRef)
    (hprofile : plan.profile = order.profile) (hpublish : plan.publishPorts = order.publishPorts)
    {rounds : Nat} {triedIps : List IPv4Address} {triedPorts : List Nat} {lastError : String} :
    KeepsRecords orders (spawnAttempts env plan rounds triedIps triedPorts lastError)
      (fun outcome seen' => ∀ c ip, outcome = .started c ip →
        ∃ ip' portMap, (c.id, plan.spec ip' portMap) ∈ seen') seen := by
  induction rounds generalizing seen triedIps triedPorts lastError with
  | zero => exact fun _ _ h => by cases h
  | succ rounds ih =>
    rw [spawnAttempts]
    refine Conforms.bind
      (records_plain (callsOnly_findNextOwnerIp.mono leavesRecords_of_allocationRead)) ?_
    intro ip _ _
    refine Conforms.ite ih ?_
    refine Conforms.bind records_attemptPorts ?_
    intro ports _ hports
    cases ports with
    | error msg => exact fun _ _ h => by cases h
    | ok portMap =>
      have hmapped : order.publishPorts = false → portMap = none := by
        rw [← hpublish]
        exact hports portMap rfl
      refine Conforms.bind (records_startContainer
        ⟨order, horder, plan.fulfils ip howner href hprofile hmapped⟩) ?_
      intro result _ hstarted
      cases result with
      | ok c =>
        rintro _ _ ⟨⟩
        exact ⟨ip, portMap, hstarted c rfl⟩
      | error err =>
        refine Conforms.bind
          (records_plain (callsOnly_forceRemoveByName.mono leavesRecords_of_auxiliaryCall)) ?_
        intro _ _ _
        exact Conforms.ite ih fun _ _ h => by cases h

/-- The row of a container agrees with the specification that the container was created with. -/
theorem SpawnPlan.recordedIn {plan : SpawnPlan} {c : Container} {ip ip' : IPv4Address}
    {portMap : Option (List (String × Nat))} (hnamed : order.Named)
    (howner : plan.owner = order.owner) (href : plan.challengeRef = order.challengeRef)
    (hports : ∀ port ∈ plan.exposedPorts, IsPortText port) (hexpires : plan.expiresAt ≠ some "") :
    (plan.row c ip).RecordedIn (plan.spec ip' portMap) := by
  refine ⟨rfl, ?_, ?_, rfl, hexpires⟩
  · refine ⟨toString plan.owner.ownerId, parseOwnerId_toString _, ?_⟩
    have htype : plan.owner.ownerType ≠ "" := howner ▸ hnamed.1
    have hchallenge : plan.challengeRef ≠ "" := href ▸ hnamed.2
    show (if _ then some _ else none) = _
    exact if_pos ⟨htype, toString_int_ne_empty _, hchallenge⟩
  · exact (splitPorts_intercalate hports).symm

theorem records_recordInstance {plan : SpawnPlan} {c : Container} {ip ip' : IPv4Address}
    {portMap : Option (List (String × Nat))} (hnamed : order.Named)
    (howner : plan.owner = order.owner) (href : plan.challengeRef = order.challengeRef)
    (hports : ∀ port ∈ plan.exposedPorts, IsPortText port) (hexpires : plan.expiresAt ≠ some "")
    (hseen : (c.id, plan.spec ip' portMap) ∈ seen) :
    KeepsRecords orders (recordInstance plan c ip) (fun _ _ => True) seen := by
  refine Conforms.bind
    (records_plain (callsOnly_liveContainerIp.mono leavesRecords_of_auxiliaryCall)) ?_
  intro live seen' hkept
  refine Conforms.perform trivial fun found hfound => ?_
  cases found with
  | error err => trivial
  | ok fresh =>
    obtain ⟨hid, hspec⟩ := hfound
    have hmem := hkept hseen
    refine Conforms.perform ⟨plan.spec ip' portMap, ?_, ?_⟩ fun added _ => ?_
    · show (fresh.id, _) ∈ seen'
      rw [hid]
      exact hmem
    · exact plan.recordedIn hnamed howner href hports hexpires
    · cases added with
      | ok row => trivial
      | error err => exact Conforms.perform trivial fun _ _ => trivial

theorem records_detectExposedPorts {tag : String} :
    KeepsRecords orders (detectExposedPorts tag)
      (fun ports _ => ∀ port ∈ ports, IsPortText port) seen := by
  refine Conforms.perform trivial fun exposed hexposed => ?_
  cases exposed with
  | error err =>
    intro port hport
    cases hport
  | ok ports =>
    intro port hport
    exact hexposed port ((List.perm_insertionSort _ ports).mem_iff.mp hport)

theorem records_isoExpiry {ttlSeconds : Option Int} :
    KeepsRecords orders (isoExpiry ttlSeconds) (fun expiresAt _ => expiresAt ≠ some "") seen := by
  cases ttlSeconds with
  | none =>
    rintro ⟨⟩
  | some ttl =>
    refine Conforms.perform trivial fun text htext => ?_
    intro hempty
    exact htext (Option.some.inj hempty)

theorem records_spawnInstance (horder : orders order) (hnamed : order.Named) {buildPath : String}
    {ttlSeconds : Option Int} :
    KeepsRecords orders (spawnInstance env order.owner order.challengeRef buildPath
      (some order.profile)
      ttlSeconds order.publishPorts) (fun _ _ => True) seen := by
  refine Conforms.perform trivial fun existing _ => ?_
  cases existing with
  | some row => trivial
  | none =>
    refine Conforms.perform trivial fun hasDockerfile _ => Conforms.ite ?_ trivial
    refine Conforms.bind
      (records_any (callsOnly_ensureOwnerNetwork.mono leavesRecords_of_networkCall)) ?_
    intro octet _ _
    refine Conforms.bind
      (records_any (callsOnly_dockerClient_reads.mono leavesRecords_of_readingCall)) ?_
    intro _ _ _
    refine Conforms.perform trivial fun built _ => Conforms.ite ?_ trivial
    refine Conforms.bind records_detectExposedPorts ?_
    intro exposedPorts _ hports
    refine Conforms.bind records_isoExpiry ?_
    intro expiresAt _ hexpires
    extract_lets plan
    refine Conforms.bind (records_spawnAttempts horder rfl rfl rfl rfl) ?_
    intro outcome _ hstarted
    cases outcome with
    | started c ip =>
      obtain ⟨ip', portMap, hseen⟩ := hstarted c ip rfl
      exact records_recordInstance hnamed rfl rfl hports hexpires hseen
    | failed error => trivial
    | exhausted lastError => trivial

/-! ## The programs of the daemon -/

theorem records_withSpawnSemaphore {body : Daemon α}
    (hbody : KeepsRecords orders body (fun _ _ => True) seen) :
    KeepsRecords orders (withSpawnSemaphore body) (fun _ _ => True) seen := by
  refine Conforms.perform trivial fun _ _ => ?_
  apply wp_finally.mpr
  apply wp_mono hbody
  intro out φ _
  refine Conforms.call trivial fun _ _ => ?_
  cases out <;> trivial

theorem leavesRecords_of_issuesNothing (op : DaemonOp) (h : ServicePhase.issuesNothing.admits op) :
    leavesRecords op := by
  cases op with
  | db op => cases op <;> first | exact h.elim | trivial
  | docker op => cases op <;> first | exact h.elim | trivial
  | filter op | wg op | host op => trivial

/-- Every handler does what its request ordered. -/
theorem records_handle {request : Request}
    (h : ∀ order, request.order? = some order → orders order ∧ order.Named) :
    KeepsRecords orders (handle env request) (fun _ _ => True) seen := by
  cases request with
  | containerEnsureInstance owner challengeRef buildPath security ttlSeconds publishPorts =>
    obtain ⟨horder, hnamed⟩ := h ⟨owner, challengeRef, security, publishPorts⟩ rfl
    refine Conforms.bind (records_withSpawnSemaphore (records_spawnInstance horder hnamed)) ?_
    intro result _ _
    have hinstance : CallsOnly leavesRecords (spawnedInstance result) := by
      unfold spawnedInstance
      split <;> constructor
    refine Conforms.bind (records_any hinstance) ?_
    intro row _ _
    refine Conforms.bind (records_any (callsOnly_rebuildFirewall.mono leavesRecords_of_quietCall)) ?_
    intro _ _ _
    trivial
  | _ =>
    apply records_any
    exact (callsOnly_handle_issuesNothing rfl).mono leavesRecords_of_issuesNothing

/-- The row that adoption stores is read from what it was told of the container. -/
theorem adoptedRow_recordedIn {owner : Owner} {challengeRef ownerId : String} {c : Container}
    {ip : Option IPv4Address} (hid : parseOwnerId ownerId = .ok owner.ownerId)
    (hidentity : labelledIdentity c.spec.labels = some (owner.ownerType, ownerId, challengeRef)) :
    (adoptedRow owner challengeRef c ip).RecordedIn c.spec := by
  refine ⟨rfl, ⟨ownerId, hid, hidentity⟩, rfl, ?_, ?_⟩
  · unfold adoptedRow
    by_cases hempty : (c.spec.labels.lookup expiresLabel).getD "" = ""
    · simp [hempty]
    · simp [hempty]
  · unfold adoptedRow
    by_cases hempty : (c.spec.labels.lookup expiresLabel).getD "" = ""
    · simp [hempty]
    · simp [hempty]

theorem records_adoptOne {c : Container} (hseen : (c.id, c.spec) ∈ seen) :
    KeepsRecords orders (adoptOne c) (fun _ seen' => seen ⊆ seen') seen := by
  unfold adoptOne
  cases hidentity : labelledIdentity c.spec.labels with
  | none => exact List.Subset.refl _
  | some identity =>
    obtain ⟨ownerType, idText, challengeRef⟩ := identity
    cases hid : parseOwnerId idText with
    | error err =>
      simp only [hid]
      trivial
    | ok ownerId =>
      simp only [hid]
      show KeepsRecords orders (callDb (.getOctet ⟨ownerType, ownerId⟩) >>= fun _ => _) _ _
      refine Conforms.perform trivial fun held _ => ?_
      have hlive : ∀ networkName, KeepsRecords orders (liveContainerIp c networkName)
          (fun live seen' => seen' = seen ∧ live.1.id = c.id ∧ live.1.spec = c.spec) seen := by
        intro networkName
        refine Conforms.perform trivial fun found hfound => ?_
        cases found with
        | error err => exact ⟨rfl, rfl, rfl⟩
        | ok fresh =>
          obtain ⟨hid, hspec⟩ := hfound
          exact Conforms.ite ⟨rfl, hid, hspec _ hseen⟩ ⟨rfl, hid, hspec _ hseen⟩
      refine Conforms.bind (hlive _) ?_
      rintro live _ ⟨rfl, hliveId, hliveSpec⟩
      refine Conforms.perform ⟨live.1.spec, ?_, adoptedRow_recordedIn hid ?_⟩ fun added _ => ?_
      · show (live.1.id, live.1.spec) ∈ _
        rw [hliveId, hliveSpec]
        exact hseen
      · rw [hliveSpec]
        exact hidentity
      · cases added with
        | ok row => exact List.Subset.refl _
        | error err => exact List.Subset.refl _

theorem records_adoptEach {containers : List Container} {knownIds : List ContainerId}
    (hseen : ∀ c ∈ containers, (c.id, c.spec) ∈ seen) :
    KeepsRecords orders (adoptEach knownIds containers) (fun _ _ => True) seen := by
  induction containers generalizing seen with
  | nil => trivial
  | cons c containers ih =>
    have hrest : ∀ other ∈ containers, (other.id, other.spec) ∈ seen :=
      fun other hother => hseen other (List.mem_cons_of_mem _ hother)
    refine Conforms.ite (ih hrest) ?_
    refine Conforms.bind (records_adoptOne (hseen c List.mem_cons_self)) ?_
    intro adopted seen' hkept
    refine Conforms.bind (ih fun other hother => hkept (hrest other hother)) ?_
    intro count _ _
    trivial

theorem records_adoptUntracked : KeepsRecords orders adoptUntracked (fun _ _ => True) seen := by
  refine Conforms.bind
    (records_any (callsOnly_dockerClient_reads.mono leavesRecords_of_readingCall)) ?_
  intro _ seen' _
  refine Conforms.perform trivial fun rows _ => ?_
  refine Conforms.perform trivial fun listed _ => ?_
  cases listed with
  | error err => trivial
  | ok containers =>
    apply records_adoptEach
    intro c hc
    exact List.mem_append_left _ (List.mem_map.mpr ⟨c, hc, rfl⟩)

end Programs

/-! ## Lives -/

/-- What a thread of the daemon is there for: a connection, or the adoption at startup. -/
inductive SessionTask where
  | request (request : Request)
  | adoption
deriving DecidableEq, Repr

def SessionTask.prog (env : DaemonEnv) : SessionTask → Daemon Unit
  | .request served => serve env served
  | .adoption => do
    let _ ← adoptUntracked
    return ()

def SessionTask.order? : SessionTask → Option SpawnOrder
  | .request served => served.order?
  | .adoption => none

/-- The threads of one process, with all the permits of its semaphore. -/
def startSession (env : DaemonEnv) (tasks : List SessionTask) (permits : Nat) (w : World) :
    Config daemonEffect PyErr Seen World :=
  ⟨{ w with spawnPermits := permits }, tasks.map fun task => ⟨[], task.prog env⟩⟩

/-- The worlds of a daemon that lives through any number of processes.  The threads of a process run
    in any order, any of their calls may fail, and the process is killed at any point; containers
    come to harm at any time, and the database is lost between two processes. -/
inductive DaemonLife (env : DaemonEnv) (orders : SpawnOrder → Prop) (w₀ : World) : World → Prop
  | installed : DaemonLife env orders w₀ w₀
  | session {w : World} {tasks : List SessionTask} {permits : Nat}
      {c : Config daemonEffect PyErr Seen World} : DaemonLife env orders w₀ w →
      (∀ task ∈ tasks, ∀ order, task.order? = some order → orders order) →
      Reach (daemonSem legible) Seen.next (fun _ _ _ => True) (startSession env tasks permits w) c →
      DaemonLife env orders w₀ c.world
  | drift {w : World} {docker : Docker} : DaemonLife env orders w₀ w → w.docker.Drift docker →
      DaemonLife env orders w₀ { w with docker := docker }
  | lostDatabase {w : World} : DaemonLife env orders w₀ w → DaemonLife env orders w₀ w.withoutDb

section Lives

variable {env : DaemonEnv} {orders : SpawnOrder → Prop} {w w₀ : World}

theorem records_task {task : SessionTask}
    (h : ∀ order, task.order? = some order → orders order ∧ order.Named) :
    KeepsRecords orders (task.prog env) (fun _ _ => True) [] := by
  cases task with
  | request served =>
    refine Conforms.bind (records_handle h) ?_
    intro _ _ _
    trivial
  | adoption =>
    refine Conforms.bind records_adoptUntracked ?_
    intro _ _ _
    trivial

theorem World.Recorded.installed (h : w.Installed) : w.Recorded orders := by
  refine ⟨h.wellFormed.docker, ?_, ?_, ?_⟩
  · rw [h.docker]
    exact List.nodup_nil
  · intro c hc
    rw [h.docker] at hc
    cases hc
  · intro row hrow
    rw [h.db] at hrow
    cases hrow

/-- **A process.**  However its threads interleave, and wherever it is killed. -/
theorem World.Recorded.session {tasks : List SessionTask} {permits : Nat}
    {c : Config daemonEffect PyErr Seen World} (h : w.Recorded orders)
    (htasks : ∀ task ∈ tasks, ∀ order, task.order? = some order → orders order ∧ order.Named)
    (hreach : Reach (daemonSem legible) Seen.next (fun _ _ _ => True)
      (startSession env tasks permits w) c) : c.world.Recorded orders := by
  have hinvariant : (c.world.Recorded orders ∧ ∀ seen ∈ c.phases, Seen.Holds seen c.world) ∧
      ∀ thread ∈ c.threads, Conforms Seen.expected (Seen.admits orders) Seen.next thread.prog
        (returning fun _ _ => True) thread.phase := by
    apply reach_invariant (J := fun world phases =>
      world.Recorded orders ∧ ∀ seen ∈ phases, Seen.Holds seen world) ?_ ?_ ?_ hreach
    · rintro world phases tid seen op res world' ⟨hrecorded, hholds⟩ hphase hadmits hsem -
      obtain ⟨hexpected, hrecorded', hnext, hothers⟩ :=
        hrecorded.sem (hholds seen (List.mem_of_getElem? hphase)) hadmits hsem
      refine ⟨hexpected, hrecorded', ?_⟩
      intro other hother
      rcases List.mem_or_eq_of_mem_set hother with hold | rfl
      · exact hothers other (hholds other hold)
      · exact hnext
    · intro thread hthread
      obtain ⟨task, htask, rfl⟩ := List.mem_map.mp hthread
      exact records_task (htasks task htask)
    · refine ⟨h.congr rfl rfl, ?_⟩
      intro seen hseen entry hentry
      obtain ⟨thread, hthread, rfl⟩ := List.mem_map.mp hseen
      obtain ⟨task, -, rfl⟩ := List.mem_map.mp hthread
      cases hentry
  exact hinvariant.1.1

theorem World.Recorded.drift {d : Docker} (h : w.Recorded orders) (hdrift : w.docker.Drift d) :
    ({ w with docker := d } : World).Recorded orders := by
  have hwellFormed := h.docker.drift hdrift
  cases hdrift with
  | @changed id status ipAddress =>
    apply h.docker_kept hwellFormed _ (Nat.le_refl _)
    · intro c hc
      obtain ⟨old, hold, ⟨-, rfl⟩ | ⟨-, rfl⟩⟩ := Docker.mem_updateContainer.mp hc
      · exact ⟨old, hold, rfl, rfl⟩
      · exact ⟨_, hold, rfl, rfl⟩
    · have hnames : (w.docker.updateContainer id fun c =>
          { c with status := status, ipAddress := ipAddress }).containers.map
            (fun c => c.spec.name) = w.docker.containers.map fun c => c.spec.name := by
        unfold Docker.updateContainer
        rw [List.map_map]
        apply List.map_congr_left
        intro c _
        by_cases hid : c.id = id
        · simp [hid]
        · simp [hid]
      rw [hnames]
  | removed =>
    apply h.docker_kept hwellFormed (List.filter_sublist.map _) (Nat.le_refl _)
    exact fun c hc => ⟨c, List.mem_of_mem_filter hc, rfl, rfl⟩

theorem DaemonLife.recorded (hlife : DaemonLife env orders w₀ w) (hinstalled : w₀.Installed)
    (hnamed : ∀ order, orders order → order.Named) : w.Recorded orders := by
  induction hlife with
  | installed => exact .installed hinstalled
  | session _ htasks hreach ih =>
    apply ih.session _ hreach
    intro task htask order horder
    exact ⟨htasks task htask order horder, hnamed order (htasks task htask order horder)⟩
  | drift _ hdrift ih => exact ih.drift hdrift
  | lostDatabase _ ih =>
    refine ⟨ih.docker, ih.names, ih.containers, ?_⟩
    intro row hrow
    cases hrow

end Lives

theorem legible_quietChoice (op : DaemonOp) : legible op (quietChoice op) := by
  cases op with
  | docker op =>
    cases op with
    | imagesGet tag =>
      rintro ports ⟨⟩ port hport
      rw [List.mem_singleton.mp hport]
      exact ⟨by decide, by decide⟩
    | _ => trivial
  | host op =>
    cases op with
    | isoExpiry ttlSeconds =>
      show "2030-01-01T00:00:00+00:00" ≠ ""
      decide
    | _ => trivial
  | _ => trivial

/-- A process is killed between the creation of its second container and the row of it. -/
def killedAtSecond : Option (Config daemonEffect PyErr Seen World) :=
  daemonMachine.runSchedule Seen.next (fun _ => true)
    (List.replicate 17 (0, quietChoice) ++ List.replicate 13 (1, quietChoice))
    (startSession DaemonEnv.default [.request (spawnRequest ⟨"team", 1⟩ "7"),
      .request (spawnRequest ⟨"user", 1⟩ "7")] 4 freshHost)

theorem killedAtSecond_ids : killedAtSecond.any (fun c => decide (
    (c.world.docker.containers.map Container.id = [1, 3] ∧
      c.world.db.instances.map Instance.containerId = [1]) ∧
    c.world.filter .forward = some [] ∧ c.world.filter .dockerUser = some [])) = true := by
  decide +kernel

/-- The owner of one of the two spawns. -/
def IsSpawnOfSeven (order : SpawnOrder) : Prop :=
  ∃ ownerType, ownerType ≠ "" ∧ order = ⟨⟨ownerType, 1⟩, "7", SecurityProfile.default, false⟩

theorem IsSpawnOfSeven.named {order : SpawnOrder} (h : IsSpawnOfSeven order) : order.Named := by
  obtain ⟨ownerType, hnonempty, rfl⟩ := h
  exact ⟨hnonempty, show "7" ≠ "" by decide⟩

theorem killedAtSecond_life : ∃ c, killedAtSecond = some c ∧
    DaemonLife DaemonEnv.default IsSpawnOfSeven freshHost c.world ∧
    (c.world.docker.containers.map Container.id = [1, 3] ∧
      c.world.db.instances.map Instance.containerId = [1]) ∧
    c.world.filter .forward = some [] ∧ c.world.filter .dockerUser = some [] := by
  obtain ⟨c, hrun, hcheck⟩ := (Option.any_eq_true _ _).mp killedAtSecond_ids
  refine ⟨c, hrun, ?_, of_decide_eq_true hcheck⟩
  apply DaemonLife.session .installed _
    ((Machine.reach_of_runSchedule _ hrun).mono fun _ _ _ _ => trivial)
  · intro task htask order horder
    rcases List.mem_pair.mp htask with rfl | rfl
    · exact ⟨"team", by decide, (Option.some.inj horder).symm⟩
    · exact ⟨"user", by decide, (Option.some.inj horder).symm⟩
  · intro entry hentry op
    rcases List.mem_append.mp hentry with hfirst | hsecond
    · rw [List.eq_of_mem_replicate hfirst]
      exact legible_quietChoice op
    · rw [List.eq_of_mem_replicate hsecond]
      exact legible_quietChoice op

end EdoPlugin
