import EdoPlugin.DaemonHandlers
import EdoPlugin.PluginModels
import EdoPlugin.RpcWire

/-!
# Requests and replies as JSON

`EdoDaemonClient` turns a call into the name of a method and a dictionary of parameters.  The handler
reads its arguments back from the dictionary, with a default for each that may be left out, and turns
its result into another dictionary.  What a handler does with a value of a type that no caller in the
repository sends is left open: the reading gives no result then.
-/

namespace EdoPlugin

namespace Json

/-! ## Dictionaries -/

section Dictionaries

variable {key key' : String} {value : Json} {fields : List (String × Json)}

theorem mem_keys_insertField : key' ∈ (insertField key value fields).map Prod.fst ↔
    key' = key ∨ key' ∈ fields.map Prod.fst := by
  induction fields with
  | nil => simp [insertField]
  | cons field fields ih =>
    unfold insertField
    split
    · simp
    · simp only [List.map_cons, List.mem_cons, ih]
      tauto

theorem lookup_cons_ite {field : String × Json} :
    (field :: fields).lookup key = if key = field.1 then some field.2 else fields.lookup key := by
  rw [List.lookup_cons]
  by_cases heq : key = field.1
  · simp [heq]
  · simp [heq, beq_eq_false_iff_ne.mpr heq]

theorem lookup_insertField (h : key ∉ fields.map Prod.fst) :
    (insertField key value fields).lookup key' =
      if key' = key then some value else fields.lookup key' := by
  induction fields with
  | nil => exact lookup_cons_ite
  | cons field fields ih =>
    rw [List.map_cons, List.mem_cons, not_or] at h
    unfold insertField
    split
    · exact lookup_cons_ite
    · rw [lookup_cons_ite, ih h.2, lookup_cons_ite]
      by_cases hfield : key' = field.1
      · rw [if_pos hfield, if_pos hfield, if_neg fun heq => h.1 (heq.symm.trans hfield)]
      · rw [if_neg hfield, if_neg hfield]

/-- The fields of a dictionary display, in order. -/
def ordered (fields : List (String × Json)) : List (String × Json) :=
  fields.foldr (fun field => insertField field.1 field.2) []

theorem mem_keys_ordered : key ∈ (ordered fields).map Prod.fst ↔ key ∈ fields.map Prod.fst := by
  induction fields with
  | nil => rfl
  | cons field fields ih =>
    show key ∈ (insertField field.1 field.2 (ordered fields)).map Prod.fst ↔ _
    rw [mem_keys_insertField, ih, List.map_cons, List.mem_cons]

/-- A dictionary display with distinct keys finds the value of each key. -/
theorem lookup_ordered (h : (fields.map Prod.fst).Nodup) :
    (ordered fields).lookup key = fields.lookup key := by
  induction fields with
  | nil => rfl
  | cons field fields ih =>
    rw [List.map_cons, List.nodup_cons] at h
    have hnotMem : field.1 ∉ (ordered fields).map Prod.fst := fun hmem => h.1 (mem_keys_ordered.mp hmem)
    show (insertField field.1 field.2 (ordered fields)).lookup key = _
    rw [lookup_insertField hnotMem, ih h.2, lookup_cons_ite]

theorem truthy_dict_cons {field : String × Json} : (Json.dict (field :: fields)).truthy = true := by
  have hmem : field.1 ∈ (ordered (field :: fields)).map Prod.fst :=
    mem_keys_ordered.mpr List.mem_cons_self
  show (!(ordered (field :: fields)).isEmpty) = true
  cases hcase : ordered (field :: fields) with
  | nil =>
    rw [hcase] at hmem
    cases hmem
  | cons _ _ => rfl

end Dictionaries

end Json

/-- How Docker's ids and floats are written. -/
structure WireText where
  idText : ContainerId → String
  /-- The id a text is the text of. -/
  idOf : String → Option ContainerId
  idOf_idText : ∀ id, idOf (idText id) = some id
  /-- `repr` of a float. -/
  floatRepr : Rat → String
  /-- The number a float's `repr` stands for; there is none for an infinity or a NaN. -/
  floatOf : String → Option Rat

/-! ## What the client sends -/

def optionalJson {α : Type} (write : α → Json) : Option α → Json
  | some value => write value
  | none => .null

namespace Request

/-- The method a client's function names. -/
def method : Request → String
  | .ping => "ping"
  | .wgEnsurePeer .. => "wg.ensure_peer"
  | .wgRemovePeer _ => "wg.remove_peer"
  | .wgRenderConfig _ => "wg.render_config"
  | .containerEnsureInstance .. => "container.ensure_instance"
  | .containerReleaseInstance _ => "container.release_instance"
  | .containerReconcile => "container.reconcile"
  | .containerInspect _ => "container.inspect"
  | .killSwitch => "kill_switch"

/-- The `security` dictionary of `spawn_instance`. -/
def security (text : WireText) (profile : SecurityProfile) : Json :=
  .dict [
    ("cpus", optionalJson (fun cpus => .float (text.floatRepr cpus)) profile.cpus),
    ("memory", optionalJson .str profile.memory),
    ("pids_limit", optionalJson .int profile.pidsLimit),
    ("read_only_rootfs", .bool profile.readOnlyRootfs)]

/-- The parameters a client's function sends. -/
def params (text : WireText) : Request → List (String × Json)
  | .ping | .containerReconcile | .killSwitch => []
  | .wgEnsurePeer userId owner => Json.ordered [
      ("user_id", .int userId), ("owner_type", .str owner.ownerType), ("owner_id", .int owner.ownerId)]
  | .wgRemovePeer userId | .wgRenderConfig userId => [("user_id", .int userId)]
  | .containerEnsureInstance owner challengeRef buildPath profile ttlSeconds publishPorts =>
    Json.ordered [
      ("owner_type", .str owner.ownerType), ("owner_id", .int owner.ownerId),
      ("challenge_ref", .str challengeRef), ("build_path", .str buildPath),
      ("security", security text profile), ("ttl_seconds", optionalJson .int ttlSeconds),
      ("publish_ports", .bool publishPorts)]
  | .containerReleaseInstance containerId | .containerInspect containerId =>
    [("container_id", .str (text.idText containerId))]

/-- The plugin sends no more of a security profile than four fields, and a number of processors that
    its `repr` gives back. -/
def Sendable (text : WireText) : Request → Prop
  | .containerEnsureInstance _ _ _ profile _ _ =>
    profile = { SecurityProfile.default with
      memory := profile.memory, cpus := profile.cpus, pidsLimit := profile.pidsLimit,
      readOnlyRootfs := profile.readOnlyRootfs } ∧
    profile.memory ≠ some "" ∧
    ∀ cpus, profile.cpus = some cpus → text.floatOf (text.floatRepr cpus) = some cpus
  | _ => True

end Request

/-! ## What the handlers read -/

namespace Rpc

/-- A value, the exception that reading it raises, or `none` for a value of another type than any
    caller sends. -/
abbrev Reading (α : Type) : Type := Except (Option PyErr) α

def unexpected {α : Type} : Reading α := .error none

/-- `params[key]` -/
def item (params : Json) (key : String) : Reading Json :=
  match params with
  | .obj fields =>
    match fields.lookup key with
    | some value => .ok value
    | none => .error (some (.keyError key))
  | _ => unexpected

/-- `value.get(key)` -/
def itemOrNone (value : Json) (key : String) : Reading (Option Json) :=
  match value.get key with
  | .ok found => .ok found
  | .error msg => .error (some (.attributeError msg))

def asStr : Json → Reading String
  | .str text => .ok text
  | _ => unexpected

def asStrings : List Json → Reading (List String)
  | [] => .ok []
  | .str text :: items => do
    let texts ← asStrings items
    return text :: texts
  | _ :: _ => unexpected

/-- A list of texts that may be left out or empty. -/
def listOr (default : List String) : Option Json → Reading (List String)
  | none => .ok default
  | some .null => .ok []
  | some (.arr items) => asStrings items
  | some _ => unexpected

/-- A text that counts as none when it is empty. -/
def textOrNone : Option Json → Reading (Option String)
  | none | some .null => .ok none
  | some (.str text) => .ok (if text = "" then none else some text)
  | some _ => unexpected

def intOrNone : Option Json → Reading (Option Int)
  | none | some .null => .ok none
  | some (.int value) => .ok (some value)
  | some _ => unexpected

def flagOr (default : Bool) (given : Option Json) : Bool := (given.map Json.truthy).getD default

section Reading

variable (text : WireText) (codec : JsonCodec)

/-- `int(value)` -/
def asInt : Json → Reading Int
  | .int value => .ok value
  | .bool value => .ok (if value then 1 else 0)
  | .float repr =>
    match text.floatOf repr with
    | some value => .ok (value.num.tdiv value.den)
    | none => unexpected
  | .str digits =>
    match pyInt digits with
    | some value => .ok value
    | none => .error (some (.valueError s!"invalid literal for int() with base 10: '{digits}'"))
  | _ => unexpected

def floatOrNone : Option Json → Reading (Option Rat)
  | none | some .null => .ok none
  | some (.int value) => .ok (some value)
  | some (.float repr) =>
    match text.floatOf repr with
    | some value => .ok (some value)
    | none => unexpected
  | some _ => unexpected

def asId : Json → Reading ContainerId
  | .str id =>
    match text.idOf id with
    | some containerId => .ok containerId
    | none => unexpected
  | _ => unexpected

def readEnsurePeer (params : Json) : Reading Request := do
  let userId ← asInt text (← item params "user_id")
  let ownerType ← asStr (← item params "owner_type")
  let ownerId ← asInt text (← item params "owner_id")
  return .wgEnsurePeer userId ⟨ownerType, ownerId⟩

def readUser (request : Int → Request) (params : Json) : Reading Request := do
  let userId ← asInt text (← item params "user_id")
  return request userId

def readContainer (request : ContainerId → Request) (params : Json) : Reading Request := do
  let containerId ← asId text (← item params "container_id")
  return request containerId

/-- The `SecurityProfile` of the parameters: `sec = params.get("security") or {}` and its fields. -/
def readSecurity (params : Json) : Reading SecurityProfile := do
  let given ← itemOrNone params "security"
  let sec := match given with
    | some value => if value.truthy then value else .obj []
    | none => .obj []
  let noNewPrivileges ← itemOrNone sec "no_new_privileges"
  let capDrop ← listOr ["NET_RAW"] (← itemOrNone sec "cap_drop")
  let capAdd ← listOr [] (← itemOrNone sec "cap_add")
  let readOnlyRootfs ← itemOrNone sec "read_only_rootfs"
  let memory ← textOrNone (← itemOrNone sec "memory")
  let cpus ← floatOrNone text (← itemOrNone sec "cpus")
  let pidsLimit ← intOrNone (← itemOrNone sec "pids_limit")
  let restartPolicy ← itemOrNone sec "restart_policy"
  let restartPolicy ← asStr (restartPolicy.getD (.str "unless-stopped"))
  return {
    noNewPrivileges := flagOr true noNewPrivileges, capDrop, capAdd
    readOnlyRootfs := flagOr false readOnlyRootfs, memory, cpus, pidsLimit, restartPolicy }

/-- The other arguments of `spawn_instance`. -/
def readSpawn (params : Json) (profile : SecurityProfile) : Reading Request := do
  let ownerType ← asStr (← item params "owner_type")
  let ownerId ← asInt text (← item params "owner_id")
  let challengeRef ← item params "challenge_ref"
  let buildPath ← asStr (← item params "build_path")
  let ttlSeconds ← intOrNone (← itemOrNone params "ttl_seconds")
  let publishPorts ← itemOrNone params "publish_ports"
  return .containerEnsureInstance ⟨ownerType, ownerId⟩ (codec.text challengeRef) buildPath profile
    ttlSeconds (flagOr false publishPorts)

end Reading

end Rpc

/-! ## What the daemon replies -/

def Status.text : Status → String
  | .created => "created"
  | .running => "running"
  | .paused => "paused"
  | .restarting => "restarting"
  | .removing => "removing"
  | .exited => "exited"
  | .dead => "dead"

/-- `str(e)`; that of a `KeyError` is the `repr` of its key. -/
def PyErr.wireText : PyErr → String
  | .keyError msg => s!"'{msg}'"
  | err => err.str

namespace Instance

variable (text : WireText) (row : Instance)

/-- The fields of `container.ensure_instance`. -/
def spawnedFields : List (String × Json) := [
  ("container_id", .str (text.idText row.containerId)),
  ("container_name", .str row.containerName),
  ("assigned_ip", .str ((row.assignedIp.map addressStr).getD "")),
  ("ports", .arr (row.ports.map .str)),
  ("published_ports", .dict ((row.publishedPorts.getD []).map fun port => (port.1, .int port.2))),
  ("expires_at", optionalJson .str row.expiresAt),
  ("status", .str row.status.text)]

/-- The fields of `container.reconcile` and `container.inspect`. -/
def trackedFields : List (String × Json) :=
  row.spawnedFields text ++ [
    ("owner_type", .str row.owner.ownerType), ("owner_id", .int row.owner.ownerId),
    ("challenge_ref", .str row.challengeRef)]

end Instance

/-- The value a handler returns, which depends on the method only where an instance is returned. -/
def Request.replyJson (text : WireText) (request : Request) : Reply → Json
  | .pong => .dict [("pong", .bool true)]
  | .peer reply => .dict [
      ("username", .str reply.username), ("public_key", .str reply.publicKey),
      ("private_key", optionalJson .str reply.privateKey),
      ("assigned_ip", .str (addressStr reply.assignedIp)),
      ("server_public_key", .str reply.serverPublicKey), ("endpoint", .str reply.endpoint),
      ("listen_port", .int reply.listenPort)]
  | .removed removed => .dict [("removed", .bool removed)]
  | .config config => .str config
  | .instance_ row => .dict (if request.spawns then row.spawnedFields text else row.trackedFields text)
  | .reconciled pruned rows => .dict [
      ("pruned", .int pruned), ("instances", .arr (rows.map fun row => .dict (row.trackedFields text)))]
  | .containersRemoved count => .dict [("containers_removed", .int count)]

/-! ## A request is read as it was sent -/

namespace Rpc

section RoundTrip

variable {text : WireText} {codec : JsonCodec} {fields : List (String × Json)} {key : String}

@[simp] theorem ok_bind {α β : Type} (value : α) (f : α → Reading β) :
    ((.ok value : Reading α) >>= f) = f value := rfl

/-- Reading an item of a dictionary display. -/
theorem item_ordered (hkeys : (fields.map Prod.fst).Nodup) :
    item (.obj (Json.ordered fields)) key =
      match fields.lookup key with
      | some value => .ok value
      | none => .error (some (.keyError key)) := by
  simp only [item, Json.lookup_ordered hkeys]

theorem itemOrNone_ordered (hkeys : (fields.map Prod.fst).Nodup) :
    itemOrNone (.obj (Json.ordered fields)) key = .ok (fields.lookup key) := by
  simp only [itemOrNone, Json.get, Json.lookup_ordered hkeys]

theorem readEnsurePeer_params (userId : Int) (owner : Owner) :
    readEnsurePeer text (.obj ((Request.wgEnsurePeer userId owner).params text)) =
      .ok (.wgEnsurePeer userId owner) := by
  simp [readEnsurePeer, Request.params, item_ordered, List.lookup, asInt, asStr]

theorem asId_idText (containerId : ContainerId) :
    asId text (.str (text.idText containerId)) = .ok containerId := by
  simp only [asId, text.idOf_idText]

theorem readContainer_params (request : ContainerId → Request) (containerId : ContainerId) :
    readContainer text request (.obj [("container_id", .str (text.idText containerId))]) =
      .ok (request containerId) := by
  show (asId text (.str (text.idText containerId)) >>= fun id => .ok (request id)) = _
  rw [asId_idText, ok_bind]

theorem intOrNone_optionalJson (value : Option Int) :
    intOrNone (some (optionalJson .int value)) = .ok value := by
  cases value <;> rfl

theorem textOrNone_optionalJson {value : Option String} (h : value ≠ some "") :
    textOrNone (some (optionalJson .str value)) = .ok value := by
  cases value with
  | none => rfl
  | some value =>
    have hne : value ≠ "" := fun heq => h (congrArg some heq)
    show Except.ok (if value = "" then none else some value) = _
    rw [if_neg hne]

theorem floatOrNone_optionalJson {value : Option Rat}
    (h : ∀ cpus, value = some cpus → text.floatOf (text.floatRepr cpus) = some cpus) :
    floatOrNone text (some (optionalJson (fun cpus => .float (text.floatRepr cpus)) value)) =
      .ok value := by
  cases value with
  | none => rfl
  | some cpus =>
    simp only [optionalJson, floatOrNone, h cpus rfl]

variable {owner : Owner} {challengeRef buildPath : String} {profile : SecurityProfile}
  {ttlSeconds : Option Int} {publishPorts : Bool}

/-- The profile of the four fields that are sent, with the daemon's defaults for the others. -/
theorem readSecurity_params
    (hsend : (Request.containerEnsureInstance owner challengeRef buildPath profile ttlSeconds
      publishPorts).Sendable text) :
    readSecurity text (.obj ((Request.containerEnsureInstance owner challengeRef buildPath profile
      ttlSeconds publishPorts).params text)) = .ok profile := by
  obtain ⟨hprofile, hmemory, hcpus⟩ := hsend
  have hsent : itemOrNone (.obj ((Request.containerEnsureInstance owner challengeRef buildPath profile
      ttlSeconds publishPorts).params text)) "security" =
        .ok (some (Request.security text profile)) := by
    simp [Request.params, itemOrNone_ordered, List.lookup]
  have htruthy : (Request.security text profile).truthy = true := Json.truthy_dict_cons
  have hfield : ∀ key, itemOrNone (Request.security text profile) key = .ok (List.lookup key [
      ("cpus", optionalJson (fun cpus => .float (text.floatRepr cpus)) profile.cpus),
      ("memory", optionalJson .str profile.memory),
      ("pids_limit", optionalJson .int profile.pidsLimit),
      ("read_only_rootfs", .bool profile.readOnlyRootfs)]) :=
    fun key => itemOrNone_ordered (by simp)
  unfold readSecurity
  rw [hsent]
  simp only [ok_bind, htruthy, if_true, hfield]
  simp [List.lookup, listOr, intOrNone_optionalJson, textOrNone_optionalJson hmemory,
    floatOrNone_optionalJson hcpus, asStr, flagOr, Json.truthy]
  rw [hprofile]
  rfl

theorem readSpawn_params :
    readSpawn text codec (.obj ((Request.containerEnsureInstance owner challengeRef buildPath profile
      ttlSeconds publishPorts).params text)) profile =
      .ok (.containerEnsureInstance owner challengeRef buildPath profile ttlSeconds publishPorts) := by
  simp [readSpawn, Request.params, item_ordered, itemOrNone_ordered, List.lookup, asInt, asStr,
    intOrNone_optionalJson, JsonCodec.text, flagOr, Json.truthy]

end RoundTrip

end Rpc

end EdoPlugin
