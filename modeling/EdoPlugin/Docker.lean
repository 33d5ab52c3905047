import EdoPlugin.Database

/-!
# The Docker daemon

Docker is outside the repository; this is the documented behaviour of the API calls that
`containers.py` makes, one atomic step each, over a state of networks and containers.  A call can
always fail with an `APIError` of any text and no effect; that, the exposed ports of an image and
the outcome of a build are choices of the outside world.

A container is created with the name of a network and joins the network of that name when it is
started, at the address it was created with.  It keeps its endpoint while it is running, paused or
restarting; a network with an endpoint cannot be removed.
-/

namespace EdoPlugin

/-- The exceptions of the Docker SDK; `NotFound` is a subclass of `APIError`. -/
inductive DockerErr where
  | apiError (msg : String)
  | notFound (msg : String)
deriving DecidableEq, Repr

def DockerErr.msg : DockerErr → String
  | .apiError msg => msg
  | .notFound msg => msg

def DockerErr.toPyErr : DockerErr → PyErr
  | .apiError msg => .apiError msg
  | .notFound msg => .notFound msg

structure Network where
  netId : Nat
  name : String
  subnet : IPv4Network
  gateway : IPv4Address
  options : List (String × String)
  labels : List (String × String)
deriving DecidableEq, Repr

/-- The arguments of `create_host_config` that are set. -/
structure HostConfig where
  restartPolicy : String
  securityOpt : List String
  capDrop : List String
  capAdd : List String
  memLimit : Option String
  nanoCpus : Option Int
  pidsLimit : Option Int
  readOnly : Bool
  tmpfs : List (String × String)
  portBindings : List (String × Nat)
deriving DecidableEq, Repr

structure ContainerSpec where
  image : String
  name : String
  networkName : String
  ipv4Address : IPv4Address
  hostConfig : HostConfig
  labels : List (String × String)
deriving DecidableEq, Repr

structure Container where
  id : ContainerId
  spec : ContainerSpec
  status : Status
  /-- The network joined at the last start. -/
  network : Option Network
  /-- The address of the endpoint, while there is one. -/
  ipAddress : Option IPv4Address
deriving DecidableEq, Repr

/-- A container in one of these states has an endpoint on its network. -/
def Status.holdsEndpoint : Status → Bool
  | .running | .paused | .restarting => true
  | .created | .removing | .exited | .dead => false

/-- `NetworkSettings.Ports` restricted to the ports with a binding. -/
def Container.boundPorts (c : Container) : List (String × Nat) :=
  if c.status.holdsEndpoint then c.spec.hostConfig.portBindings else []

/-- `client.containers.get` takes an id or a name. -/
inductive ContainerRef where
  | id (id : ContainerId)
  | name (name : String)
deriving DecidableEq, Repr

structure Docker where
  networks : List Network
  containers : List Container
  nextId : Nat
deriving DecidableEq, Repr

def Docker.empty : Docker := ⟨[], [], 0⟩

namespace Docker

def findNetwork (d : Docker) (name : String) : Option Network :=
  d.networks.find? fun net => net.name = name

def findContainer (d : Docker) : ContainerRef → Option Container
  | .id id => d.containers.find? fun c => c.id = id
  | .name name => d.containers.find? fun c => c.spec.name = name

/-- Some container has an endpoint on the network. -/
def networkBusy (d : Docker) (netId : Nat) : Bool :=
  d.containers.any fun c => c.status.holdsEndpoint && c.network.any fun net => net.netId = netId

/-- The address is the gateway's or belongs to a live endpoint of the network. -/
def addressTaken (d : Docker) (net : Network) (ip : IPv4Address) : Bool :=
  ip == net.gateway || d.containers.any fun c =>
    c.status.holdsEndpoint && c.ipAddress == some ip &&
      c.network.any fun other => other.netId = net.netId

/-- Some live container has bound one of the host ports. -/
def portTaken (d : Docker) (ports : List Nat) : Bool :=
  d.containers.any fun c => c.boundPorts.any fun binding => ports.contains binding.2

def updateContainer (d : Docker) (id : ContainerId) (f : Container → Container) : Docker :=
  { d with containers := d.containers.map fun c => if c.id = id then f c else c }

def networksGet (d : Docker) (name : String) : Except DockerErr Network :=
  match d.findNetwork name with
  | some net => .ok net
  | none => .error (.notFound s!"network {name} not found")

def networksCreate (d : Docker) (name : String) (subnet : IPv4Network) (gateway : IPv4Address)
    (options labels : List (String × String)) : Except DockerErr Unit × Docker :=
  match d.findNetwork name with
  | some _ => (.error (.apiError s!"network with name {name} already exists"), d)
  | none =>
    (.ok (), { d with
      networks := d.networks ++ [⟨d.nextId, name, subnet, gateway, options, labels⟩]
      nextId := d.nextId + 1 })

def networkRemove (d : Docker) (netId : Nat) : Except DockerErr Unit × Docker :=
  if d.networks.any fun net => net.netId = netId then
    if d.networkBusy netId then
      (.error (.apiError "error while removing network: network has active endpoints"), d)
    else (.ok (), { d with networks := d.networks.filter fun net => net.netId ≠ netId })
  else (.error (.notFound "network not found"), d)

def createContainer (d : Docker) (spec : ContainerSpec) :
    Except DockerErr ContainerId × Docker :=
  match d.findContainer (.name spec.name) with
  | some _ =>
    (.error (.apiError s!"Conflict. The container name /{spec.name} is already in use"), d)
  | none =>
    (.ok d.nextId, { d with
      containers := d.containers ++ [⟨d.nextId, spec, .created, none, none⟩]
      nextId := d.nextId + 1 })

def start (d : Docker) (id : ContainerId) : Except DockerErr Unit × Docker :=
  match d.findContainer (.id id) with
  | none => (.error (.notFound "No such container"), d)
  | some c =>
    if c.status.holdsEndpoint then (.ok (), d)
    else match d.findNetwork c.spec.networkName with
      | none => (.error (.notFound s!"network {c.spec.networkName} not found"), d)
      | some net =>
        if !net.subnet.contains c.spec.ipv4Address then
          (.error (.apiError "invalid config for network: no configured subnet contains IP address"),
            d)
        else if d.addressTaken net c.spec.ipv4Address then
          (.error (.apiError "Address already in use"), d)
        else if d.portTaken (c.spec.hostConfig.portBindings.map Prod.snd) then
          (.error (.apiError "Bind for 0.0.0.0 failed: port is already allocated"), d)
        else (.ok (), d.updateContainer id fun c => { c with
          status := .running, network := some net, ipAddress := some c.spec.ipv4Address })

def containersGet (d : Docker) (ref : ContainerRef) : Except DockerErr Container :=
  match d.findContainer ref with
  | some c => .ok c
  | none => .error (.notFound "No such container")

def stop (d : Docker) (id : ContainerId) : Except DockerErr Unit × Docker :=
  match d.findContainer (.id id) with
  | none => (.error (.notFound "No such container"), d)
  | some _ =>
    (.ok (), d.updateContainer id fun c => { c with status := .exited, ipAddress := none })

/-- `container.remove(force=True)`. -/
def remove (d : Docker) (id : ContainerId) : Except DockerErr Unit × Docker :=
  match d.findContainer (.id id) with
  | none => (.error (.notFound "No such container"), d)
  | some _ => (.ok (), { d with containers := d.containers.filter fun c => c.id ≠ id })

/-- `client.containers.list(all=True, filters={"label": label})`. -/
def containersList (d : Docker) (label : String) : List Container :=
  d.containers.filter fun c => (c.spec.labels.lookup label).isSome

end Docker

/-! ## The API as calls -/

inductive DockerOp where
  | client
  | networksGet (name : String)
  | networksCreate (name : String) (subnet : IPv4Network) (gateway : IPv4Address)
      (options labels : List (String × String))
  | networkRemove (netId : Nat)
  | imagesGet (tag : String)
  | buildImage (tag path : String)
  | createContainer (spec : ContainerSpec)
  | start (id : ContainerId)
  | containersGet (ref : ContainerRef)
  | containersList (label : String)
  | stop (id : ContainerId)
  | remove (id : ContainerId)

@[reducible] def DockerOp.Res : DockerOp → Type
  | .client => Except PyErr Unit
  | .networksGet _ => Except DockerErr Network
  | .networksCreate .. => Except DockerErr Unit
  | .networkRemove _ => Except DockerErr Unit
  | .imagesGet _ => Except DockerErr (List String)
  | .buildImage .. => Bool × String
  | .createContainer _ => Except DockerErr ContainerId
  | .start _ => Except DockerErr Unit
  | .containersGet _ => Except DockerErr Container
  | .containersList _ => Except DockerErr (List Container)
  | .stop _ => Except DockerErr Unit
  | .remove _ => Except DockerErr Unit

/-- What the outside world decides about a call: the ports an image exposes, how a build ends, and
    for every other call whether it fails (`some` error text). -/
@[reducible] def DockerOp.Choice : DockerOp → Type
  | .imagesGet _ => Except DockerErr (List String)
  | .buildImage .. => Bool × String
  | _ => Option String

/-- The step of a call that can fail before it does anything. -/
def failing {α : Type} (fault : Option String) (d : Docker)
    (step : Except DockerErr α × Docker) : Except DockerErr α × Docker :=
  match fault with
  | some msg => (.error (.apiError msg), d)
  | none => step

def DockerOp.exec (d : Docker) : (op : DockerOp) → op.Choice → op.Res × Docker
  | .client, fault =>
    match fault with
    | some msg => (.error (.runtimeError s!"docker unavailable: {msg}"), d)
    | none => (.ok (), d)
  | .networksGet name, fault => failing fault d (d.networksGet name, d)
  | .networksCreate name subnet gateway options labels, fault =>
    failing fault d (d.networksCreate name subnet gateway options labels)
  | .networkRemove netId, fault => failing fault d (d.networkRemove netId)
  | .imagesGet _, exposed => (exposed, d)
  | .buildImage .., outcome => (outcome, d)
  | .createContainer spec, fault => failing fault d (d.createContainer spec)
  | .start id, fault => failing fault d (d.start id)
  | .containersGet ref, fault => failing fault d (d.containersGet ref, d)
  | .containersList label, fault => failing fault d (.ok (d.containersList label), d)
  | .stop id, fault => failing fault d (d.stop id)
  | .remove id, fault => failing fault d (d.remove id)

end EdoPlugin
