import EdoPlugin.Topology

/-!
# The daemon's SQLite state

The three tables of `db.py` and the methods of `DatabaseManager`.  Rows are kept in the order of
their `AUTOINCREMENT` ids, so `ORDER BY id` is the table itself.  A method runs under the manager's
lock in one or two short transactions; here it is one function from the tables to a result and the
tables after it, and a method that raises leaves the tables alone.

Columns of JSON text hold the value they encode.  `assigned_ip` is `none` for the empty string,
which is what adoption writes when it finds no address.
-/

namespace EdoPlugin

structure Peer where
  owner : Owner
  username : String
  ipAddress : IPv4Address
  publicKey : String
  privateKey : Option String
deriving DecidableEq, Repr

structure OwnerOctet where
  owner : Owner
  octet : Octet
deriving DecidableEq, Repr

/-- Docker's container ids. -/
abbrev ContainerId := Nat

/-- The status Docker reports for a container, copied into the `status` column. -/
inductive Status where
  | created
  | running
  | paused
  | restarting
  | removing
  | exited
  | dead
deriving DecidableEq, Repr

structure Instance where
  containerId : ContainerId
  containerName : String
  owner : Owner
  challengeRef : String
  assignedIp : Option IPv4Address
  ports : List String
  status : Status
  expiresAt : Option String
  publishedPorts : Option (List (String × Nat))
deriving DecidableEq, Repr

/-- The columns of `UNIQUE (owner_type, owner_id, challenge_ref)`. -/
def Instance.key (row : Instance) : Owner × String := (row.owner, row.challengeRef)

structure Db where
  peers : List Peer
  ownerOctets : List OwnerOctet
  instances : List Instance
deriving DecidableEq, Repr

def Db.empty : Db := ⟨[], [], []⟩

/-- The column of the unique constraint an `INSERT` violates. -/
inductive IntegrityError where
  | username
  | ipAddress
  | owner
  | octet
  | containerId
  | key
deriving DecidableEq, Repr

namespace Db

/-! ## Peers -/

def insertPeer (db : Db) (row : Peer) : Except IntegrityError Db :=
  if db.peers.any fun p => p.username = row.username then .error .username
  else if db.peers.any fun p => p.ipAddress = row.ipAddress then .error .ipAddress
  else .ok { db with peers := db.peers ++ [row] }

/-- The first candidate address no peer uses. -/
def firstFreeIp (db : Db) (candidateIps : List IPv4Address) : Option IPv4Address :=
  candidateIps.find? fun ip => !(db.peers.any fun p => p.ipAddress = ip)

/-- The retry loop of `allocate_peer`; each attempt is one transaction. -/
def allocatePeerAttempts (db : Db) (owner : Owner) (username publicKey : String)
    (candidateIps : List IPv4Address) (privateKey : Option String) :
    Nat → Except PyErr Peer × Db
  | 0 => (.error (.runtimeError s!"could not allocate an IP for '{username}'"), db)
  | attempts + 1 =>
    match db.firstFreeIp candidateIps with
    | none => (.error (.runtimeError "WireGuard subnet is exhausted"), db)
    | some ip =>
      let row : Peer := ⟨owner, username, ip, publicKey, privateKey⟩
      match db.insertPeer row with
      | .ok db' => (.ok row, db')
      | .error .username => (.error (.valueError s!"peer '{username}' already exists"), db)
      | .error _ =>
        db.allocatePeerAttempts owner username publicKey candidateIps privateKey attempts

def allocatePeer (db : Db) (owner : Owner) (username publicKey : String)
    (candidateIps : List IPv4Address) (privateKey : Option String) : Except PyErr Peer × Db :=
  db.allocatePeerAttempts owner username publicKey candidateIps privateKey
    (max 8 candidateIps.length)

def removePeer (db : Db) (username : String) : Bool × Db :=
  (db.peers.any fun p => p.username = username,
    { db with peers := db.peers.filter fun p => p.username ≠ username })

def getPeer (db : Db) (username : String) : Option Peer :=
  db.peers.find? fun p => p.username = username

/-- `out.setdefault(key, []).append(ip)`. -/
def groupInsert (key : Owner) (ip : IPv4Address) :
    List (Owner × List IPv4Address) → List (Owner × List IPv4Address)
  | [] => [(key, [ip])]
  | (other, ips) :: rest =>
    if other = key then (other, ips ++ [ip]) :: rest
    else (other, ips) :: groupInsert key ip rest

/-- The dictionary `{(owner_type, owner_id): [ip_address, ...]}` of the peers. -/
def peersGroupedByOwner (db : Db) : List (Owner × List IPv4Address) :=
  db.peers.foldl (fun out p => groupInsert p.owner p.ipAddress out) []

/-! ## Owner octets -/

def getOctet (db : Db) (owner : Owner) : Option Octet :=
  (db.ownerOctets.find? fun row => row.owner = owner).map OwnerOctet.octet

def insertOctet (db : Db) (row : OwnerOctet) : Except IntegrityError Db :=
  if db.ownerOctets.any fun r => r.owner = row.owner then .error .owner
  else if db.ownerOctets.any fun r => r.octet = row.octet then .error .octet
  else .ok { db with ownerOctets := db.ownerOctets ++ [row] }

/-- The least octet no owner holds. -/
def firstFreeOctet (db : Db) : Option Octet :=
  allOctets.find? fun octet => !(db.ownerOctets.any fun r => r.octet = octet)

/-- The retry loop of `allocate_octet`; each attempt is one transaction. -/
def allocateOctetAttempts (db : Db) (owner : Owner) : Nat → Except PyErr Octet × Db
  | 0 => (.error (.runtimeError "could not allocate an octet"), db)
  | attempts + 1 =>
    match db.firstFreeOctet with
    | none =>
      (.error (.runtimeError "docker subnet pool exhausted (254 owners already allocated)"), db)
    | some octet =>
      match db.insertOctet ⟨owner, octet⟩ with
      | .ok db' => (.ok octet, db')
      | .error _ => db.allocateOctetAttempts owner attempts

def allocateOctet (db : Db) (owner : Owner) : Except PyErr Octet × Db :=
  match db.getOctet owner with
  | some octet => (.ok octet, db)
  | none => db.allocateOctetAttempts owner 254

def freeOctet (db : Db) (owner : Owner) : Bool × Db :=
  (db.ownerOctets.any fun row => row.owner = owner,
    { db with ownerOctets := db.ownerOctets.filter fun row => row.owner ≠ owner })

/-- `SELECT * FROM owner_octets ORDER BY octet`. -/
def getAllOwnerOctets (db : Db) : List OwnerOctet :=
  db.ownerOctets.insertionSort fun a b => a.octet.val ≤ b.octet.val

/-! ## Instances -/

def insertInstance (db : Db) (row : Instance) : Except IntegrityError Db :=
  if db.instances.any fun r => r.containerId = row.containerId then .error .containerId
  else if db.instances.any fun r => r.key = row.key then .error .key
  else .ok { db with instances := db.instances ++ [row] }

def addInstance (db : Db) (row : Instance) : Except PyErr Instance × Db :=
  match db.insertInstance row with
  | .ok db' => (.ok row, db')
  | .error .containerId =>
    (.error (.valueError
      "instance record collision: UNIQUE constraint failed: instances.container_id"), db)
  | .error _ =>
    (.error (.valueError ("instance record collision: UNIQUE constraint failed: " ++
      "instances.owner_type, instances.owner_id, instances.challenge_ref")), db)

def removeInstance (db : Db) (containerId : ContainerId) : Bool × Db :=
  (db.instances.any fun row => row.containerId = containerId,
    { db with instances := db.instances.filter fun row => row.containerId ≠ containerId })

def findInstance (db : Db) (owner : Owner) (challengeRef : String) : Option Instance :=
  db.instances.find? fun row => row.key = (owner, challengeRef)

def getActiveInstances (db : Db) : List Instance :=
  db.instances.filter fun row => row.status = .running

def getUsedInstanceIps (db : Db) (owner : Owner) : List (Option IPv4Address) :=
  (db.instances.filter fun row => row.owner = owner ∧ row.status = .running).map
    Instance.assignedIp

def countInstancesForOwner (db : Db) (owner : Owner) : Nat :=
  (db.instances.filter fun row => row.owner = owner).length

def updateInstanceStatus (db : Db) (containerId : ContainerId) (status : Status) : Bool × Db :=
  (db.instances.any fun row => row.containerId = containerId,
    { db with instances := db.instances.map fun row =>
        if row.containerId = containerId then { row with status := status } else row })

end Db

/-! ## The methods as calls -/

/-- One call of a `DatabaseManager` method. -/
inductive DbOp where
  | allocatePeer (owner : Owner) (username publicKey : String)
      (candidateIps : List IPv4Address) (privateKey : Option String)
  | removePeer (username : String)
  | getPeer (username : String)
  | getAllPeers
  | peersGroupedByOwner
  | allocateOctet (owner : Owner)
  | getOctet (owner : Owner)
  | freeOctet (owner : Owner)
  | getAllOwnerOctets
  | addInstance (row : Instance)
  | removeInstance (containerId : ContainerId)
  | findInstance (owner : Owner) (challengeRef : String)
  | getActiveInstances
  | getAllInstances
  | getUsedInstanceIps (owner : Owner)
  | countInstancesForOwner (owner : Owner)
  | updateInstanceStatus (containerId : ContainerId) (status : Status)

@[reducible] def DbOp.Res : DbOp → Type
  | .allocatePeer .. => Except PyErr Peer
  | .removePeer _ => Bool
  | .getPeer _ => Option Peer
  | .getAllPeers => List Peer
  | .peersGroupedByOwner => List (Owner × List IPv4Address)
  | .allocateOctet _ => Except PyErr Octet
  | .getOctet _ => Option Octet
  | .freeOctet _ => Bool
  | .getAllOwnerOctets => List OwnerOctet
  | .addInstance _ => Except PyErr Instance
  | .removeInstance _ => Bool
  | .findInstance .. => Option Instance
  | .getActiveInstances => List Instance
  | .getAllInstances => List Instance
  | .getUsedInstanceIps _ => List (Option IPv4Address)
  | .countInstancesForOwner _ => Nat
  | .updateInstanceStatus .. => Bool

def DbOp.exec (db : Db) : (op : DbOp) → op.Res × Db
  | .allocatePeer owner username publicKey candidateIps privateKey =>
    db.allocatePeer owner username publicKey candidateIps privateKey
  | .removePeer username => db.removePeer username
  | .getPeer username => (db.getPeer username, db)
  | .getAllPeers => (db.peers, db)
  | .peersGroupedByOwner => (db.peersGroupedByOwner, db)
  | .allocateOctet owner => db.allocateOctet owner
  | .getOctet owner => (db.getOctet owner, db)
  | .freeOctet owner => db.freeOctet owner
  | .getAllOwnerOctets => (db.getAllOwnerOctets, db)
  | .addInstance row => db.addInstance row
  | .removeInstance containerId => db.removeInstance containerId
  | .findInstance owner challengeRef => (db.findInstance owner challengeRef, db)
  | .getActiveInstances => (db.getActiveInstances, db)
  | .getAllInstances => (db.instances, db)
  | .getUsedInstanceIps owner => (db.getUsedInstanceIps owner, db)
  | .countInstancesForOwner owner => (db.countInstancesForOwner owner, db)
  | .updateInstanceStatus containerId status => db.updateInstanceStatus containerId status

end EdoPlugin
