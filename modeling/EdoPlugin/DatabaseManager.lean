import EdoPlugin.Containers
import EdoPlugin.DatabaseInvariant

/-!
# The database manager, transaction by transaction

`db.py` as it talks to SQLite: every method is one or more transactions of `_conn`, which commits
what its body has done or rolls it back, and the two allocators try again after some of SQLite's
errors.  The text columns are left open: what holds does not depend on what an address, a container
id, a status or the columns without a constraint look like.  At the daemon's own columns these methods
are the functions on `Db` that the rest of the development calls.
-/

namespace EdoPlugin.DatabaseManager

open Db

/-! ## The tables -/

structure PeerRow (Address : Type) where
  owner : Owner
  username : String
  ipAddress : Address
  publicKey : String
  privateKey : Option String
deriving DecidableEq, Repr

structure OctetRow where
  owner : Owner
  octet : Nat
deriving DecidableEq, Repr

/-- `details` stands for the columns without a constraint, other than the status. -/
structure InstanceRow (Id Status Details : Type) where
  containerId : Id
  owner : Owner
  challengeRef : String
  status : Status
  details : Details
deriving DecidableEq, Repr

/-- The columns of `UNIQUE (owner_type, owner_id, challenge_ref)`. -/
def InstanceRow.key {Id Status Details : Type} (row : InstanceRow Id Status Details) :
    Owner × String :=
  (row.owner, row.challengeRef)

/-- Rows are kept in the order of their insertion. -/
structure Tables (Address Id Status Details : Type) where
  peers : List (PeerRow Address)
  ownerOctets : List OctetRow
  instances : List (InstanceRow Id Status Details)
deriving DecidableEq, Repr

variable {Address Id Status Details : Type}

/-- What `_init_schema` leaves. -/
def Tables.empty : Tables Address Id Status Details := ⟨[], [], []⟩

/-! ## Errors -/

/-- The constraint that an `INSERT` violates. -/
inductive Constraint where
  | username
  | ipAddress
  | owner
  | octet
  | octetRange
  | containerId
  | key
deriving DecidableEq, Repr

/-- `str(e)` of the `IntegrityError`. -/
def Constraint.message : Constraint → String
  | .username => "UNIQUE constraint failed: peers.username"
  | .ipAddress => "UNIQUE constraint failed: peers.ip_address"
  | .owner => "UNIQUE constraint failed: owner_octets.owner_type, owner_octets.owner_id"
  | .octet => "UNIQUE constraint failed: owner_octets.octet"
  | .octetRange => "CHECK constraint failed: octet BETWEEN 1 AND 254"
  | .containerId => "UNIQUE constraint failed: instances.container_id"
  | .key => "UNIQUE constraint failed: instances.owner_type, instances.owner_id, " ++
      "instances.challenge_ref"

/-- `sqlite3.IntegrityError`, or an exception of `db.py` itself. -/
inductive DbError where
  | integrityError (constraint : Constraint)
  | python (err : PyErr)
deriving DecidableEq, Repr

/-- The end of a method or of a transaction, and the tables it leaves. -/
abbrev Ended (σ α : Type) : Type := Except DbError α × σ

/-- `with self._conn()`: commit what the body did, or roll it back and raise again. -/
def conn {σ α : Type} (body : σ → Ended σ α) (tables : σ) : Ended σ α :=
  match body tables with
  | (.ok value, tables') => (.ok value, tables')
  | (.error err, _) => (.error err, tables)

/-- `str(last_error)` -/
def lastErrorText : Option Constraint → String
  | none => "None"
  | some constraint => constraint.message

/-! ## Peers -/

section Peers

variable [DecidableEq Address]

def insertPeer (row : PeerRow Address) (t : Tables Address Id Status Details) :
    Ended (Tables Address Id Status Details) Unit :=
  if t.peers.any fun r => r.username = row.username then (.error (.integrityError .username), t)
  else if t.peers.any fun r => r.ipAddress = row.ipAddress then
    (.error (.integrityError .ipAddress), t)
  else (.ok (), { t with peers := t.peers ++ [row] })

/-- One transaction of `allocate_peer`. -/
def peerAttempt (owner : Owner) (username publicKey : String) (candidateIps : List Address)
    (privateKey : Option String) (t : Tables Address Id Status Details) :
    Ended (Tables Address Id Status Details) (PeerRow Address) :=
  match candidateIps.find? fun ip => !(t.peers.any fun r => r.ipAddress = ip) with
  | none => (.error (.python (.runtimeError "WireGuard subnet is exhausted")), t)
  | some ip =>
    let row : PeerRow Address := ⟨owner, username, ip, publicKey, privateKey⟩
    match insertPeer row t with
    | (.ok (), t') => (.ok row, t')
    | (.error err, t') => (.error err, t')

/-- The retry loop of `allocate_peer`, with the attempts it has left. -/
def allocatePeerLoop (attempts : Nat) (owner : Owner) (username publicKey : String)
    (candidateIps : List Address) (privateKey : Option String) :
    Nat → Option Constraint → Tables Address Id Status Details →
      Ended (Tables Address Id Status Details) (PeerRow Address)
  | 0, lastError, t => (.error (.python (.runtimeError
      (s!"could not allocate an IP for '{username}' after {attempts} attempts" ++
        s!" (last error: {lastErrorText lastError})"))), t)
  | left + 1, _, t =>
    match conn (peerAttempt owner username publicKey candidateIps privateKey) t with
    | (.error (.integrityError constraint), t') =>
      let msg := lowerText constraint.message
      if containsText "username" msg then
        (.error (.python (.valueError s!"peer '{username}' already exists")), t')
      else if containsText "ip_address" msg then
        allocatePeerLoop attempts owner username publicKey candidateIps privateKey left
          (some constraint) t'
      else (.error (.integrityError constraint), t')
    | (.error (.python err), t') => (.error (.python err), t')
    | (.ok row, t') => (.ok row, t')

def allocatePeer (owner : Owner) (username publicKey : String) (candidateIps : List Address)
    (privateKey : Option String) (t : Tables Address Id Status Details) :
    Ended (Tables Address Id Status Details) (PeerRow Address) :=
  let attempts := max 8 candidateIps.length
  allocatePeerLoop attempts owner username publicKey candidateIps privateKey attempts none t

def removePeer (username : String) :
    Tables Address Id Status Details → Ended (Tables Address Id Status Details) Bool :=
  conn fun t => (.ok (t.peers.any fun r => r.username = username),
    { t with peers := t.peers.filter fun r => r.username ≠ username })

end Peers

/-! ## Owner octets -/

def insertOctet (row : OctetRow) (t : Tables Address Id Status Details) :
    Ended (Tables Address Id Status Details) Unit :=
  if row.octet < 1 ∨ 254 < row.octet then (.error (.integrityError .octetRange), t)
  else if t.ownerOctets.any fun r => r.owner = row.owner then (.error (.integrityError .owner), t)
  else if t.ownerOctets.any fun r => r.octet = row.octet then (.error (.integrityError .octet), t)
  else (.ok (), { t with ownerOctets := t.ownerOctets ++ [row] })

/-- `get_octet`; a single row has the owner. -/
def getOctet (owner : Owner) :
    Tables Address Id Status Details → Ended (Tables Address Id Status Details) (Option Nat) :=
  conn fun t => (.ok ((t.ownerOctets.find? fun r => r.owner = owner).map OctetRow.octet), t)

/-- One transaction of the loop of `allocate_octet`. -/
def octetAttempt (owner : Owner) (t : Tables Address Id Status Details) :
    Ended (Tables Address Id Status Details) Nat :=
  match (List.range' 1 254).find? fun o => !(t.ownerOctets.any fun r => r.octet = o) with
  | none =>
    (.error (.python (.runtimeError "docker subnet pool exhausted (254 owners already allocated)")), t)
  | some octet =>
    match insertOctet ⟨owner, octet⟩ t with
    | (.ok (), t') => (.ok octet, t')
    | (.error err, t') => (.error err, t')

/-- The retry loop of `allocate_octet`, with the attempts it has left. -/
def allocateOctetLoop (owner : Owner) :
    Nat → Option Constraint → Tables Address Id Status Details →
      Ended (Tables Address Id Status Details) Nat
  | 0, lastError, t => (.error (.python (.runtimeError
      s!"could not allocate an octet (last error: {lastErrorText lastError})")), t)
  | left + 1, _, t =>
    match conn (octetAttempt owner) t with
    | (.error (.integrityError constraint), t') => allocateOctetLoop owner left (some constraint) t'
    | (.error (.python err), t') => (.error (.python err), t')
    | (.ok octet, t') => (.ok octet, t')

def allocateOctet (owner : Owner) (t : Tables Address Id Status Details) :
    Ended (Tables Address Id Status Details) Nat :=
  match getOctet owner t with
  | (.ok (some octet), t') => (.ok octet, t')
  | (.ok none, t') => allocateOctetLoop owner 254 none t'
  | (.error err, t') => (.error err, t')

def freeOctet (owner : Owner) :
    Tables Address Id Status Details → Ended (Tables Address Id Status Details) Bool :=
  conn fun t => (.ok (t.ownerOctets.any fun r => r.owner = owner),
    { t with ownerOctets := t.ownerOctets.filter fun r => r.owner ≠ owner })

/-! ## Instances -/

section Instances

variable [DecidableEq Id]

def insertInstance (row : InstanceRow Id Status Details) (t : Tables Address Id Status Details) :
    Ended (Tables Address Id Status Details) Unit :=
  if t.instances.any fun r => r.containerId = row.containerId then
    (.error (.integrityError .containerId), t)
  else if t.instances.any fun r => r.key = row.key then (.error (.integrityError .key), t)
  else (.ok (), { t with instances := t.instances ++ [row] })

def addInstance (row : InstanceRow Id Status Details) (t : Tables Address Id Status Details) :
    Ended (Tables Address Id Status Details) (InstanceRow Id Status Details) :=
  match conn (insertInstance row) t with
  | (.ok (), t') => (.ok row, t')
  | (.error (.integrityError constraint), t') =>
    (.error (.python (.valueError s!"instance record collision: {constraint.message}")), t')
  | (.error (.python err), t') => (.error (.python err), t')

def removeInstance (containerId : Id) :
    Tables Address Id Status Details → Ended (Tables Address Id Status Details) Bool :=
  conn fun t => (.ok (t.instances.any fun r => r.containerId = containerId),
    { t with instances := t.instances.filter fun r => r.containerId ≠ containerId })

def updateInstanceStatus (containerId : Id) (status : Status) :
    Tables Address Id Status Details → Ended (Tables Address Id Status Details) Bool :=
  conn fun t => (.ok (t.instances.any fun r => r.containerId = containerId),
    { t with instances := t.instances.map fun r =>
        if r.containerId = containerId then { r with status := status } else r })

end Instances

/-! ## Sequences of calls -/

/-- One call of a method that writes. -/
inductive Op (Address Id Status Details : Type) where
  | allocatePeer (owner : Owner) (username publicKey : String) (candidateIps : List Address)
      (privateKey : Option String)
  | removePeer (username : String)
  | allocateOctet (owner : Owner)
  | freeOctet (owner : Owner)
  | addInstance (row : InstanceRow Id Status Details)
  | removeInstance (containerId : Id)
  | updateInstanceStatus (containerId : Id) (status : Status)

inductive Reply (Address Id Status Details : Type) where
  | peer (row : PeerRow Address)
  | octet (octet : Nat)
  | stored (row : InstanceRow Id Status Details)
  | found (found : Bool)
deriving DecidableEq, Repr

/-- The end of a method, with its value as a reply. -/
def Ended.as {σ α β : Type} (reply : α → β) (ended : Ended σ α) : Ended σ β :=
  (ended.1.map reply, ended.2)

section Calls

variable [DecidableEq Address] [DecidableEq Id]

def Op.exec (t : Tables Address Id Status Details) : Op Address Id Status Details →
    Ended (Tables Address Id Status Details) (Reply Address Id Status Details)
  | .allocatePeer owner username publicKey candidateIps privateKey =>
    Ended.as .peer (DatabaseManager.allocatePeer owner username publicKey candidateIps privateKey t)
  | .removePeer username => Ended.as .found (DatabaseManager.removePeer username t)
  | .allocateOctet owner => Ended.as .octet (DatabaseManager.allocateOctet owner t)
  | .freeOctet owner => Ended.as .found (DatabaseManager.freeOctet owner t)
  | .addInstance row => Ended.as .stored (DatabaseManager.addInstance row t)
  | .removeInstance containerId => Ended.as .found (DatabaseManager.removeInstance containerId t)
  | .updateInstanceStatus containerId status =>
    Ended.as .found (DatabaseManager.updateInstanceStatus containerId status t)

/-- The tables after a sequence of calls, one after the other, on the empty schema. -/
def tablesAfter (ops : List (Op Address Id Status Details)) : Tables Address Id Status Details :=
  ops.foldl (fun t op => (op.exec t).2) .empty

end Calls

/-! ## What is promised -/

section Promises

variable (t : Tables Address Id Status Details)

/-- The first candidate that no peer has. -/
def FirstUnused (candidateIps : List Address) (ip : Address) : Prop :=
  (∀ r ∈ t.peers, r.ipAddress ≠ ip) ∧ ∃ before rest, candidateIps = before ++ ip :: rest ∧
    ∀ other ∈ before, ∃ r ∈ t.peers, r.ipAddress = other

/-- The three ends of `allocate_peer`. -/
inductive PeerAllocated (owner : Owner) (username publicKey : String) (candidateIps : List Address)
    (privateKey : Option String) :
    Ended (Tables Address Id Status Details) (PeerRow Address) → Prop
  | inserted {ip} : FirstUnused t candidateIps ip → (∀ r ∈ t.peers, r.username ≠ username) →
      PeerAllocated owner username publicKey candidateIps privateKey
        (.ok ⟨owner, username, ip, publicKey, privateKey⟩,
          { t with peers := t.peers ++ [⟨owner, username, ip, publicKey, privateKey⟩] })
  | alreadyExists {ip msg} : FirstUnused t candidateIps ip → (∃ r ∈ t.peers, r.username = username) →
      PeerAllocated owner username publicKey candidateIps privateKey
        (.error (.python (.valueError msg)), t)
  | exhausted {msg} : (∀ ip ∈ candidateIps, ∃ r ∈ t.peers, r.ipAddress = ip) →
      PeerAllocated owner username publicKey candidateIps privateKey
        (.error (.python (.runtimeError msg)), t)

/-- The three ends of `allocate_octet`. -/
inductive OctetAllocated (owner : Owner) : Ended (Tables Address Id Status Details) Nat → Prop
  | held {octet} : ⟨owner, octet⟩ ∈ t.ownerOctets → OctetAllocated owner (.ok octet, t)
  | inserted {octet} : (∀ r ∈ t.ownerOctets, r.owner ≠ owner) →
      IsLeast {o | 1 ≤ o ∧ o ≤ 254 ∧ ∀ r ∈ t.ownerOctets, r.octet ≠ o} octet →
      OctetAllocated owner (.ok octet, { t with ownerOctets := t.ownerOctets ++ [⟨owner, octet⟩] })
  | exhausted {msg} : (∀ r ∈ t.ownerOctets, r.owner ≠ owner) →
      (∀ o, 1 ≤ o → o ≤ 254 → ∃ r ∈ t.ownerOctets, r.octet = o) →
      OctetAllocated owner (.error (.python (.runtimeError msg)), t)

/-- The tables are as the schema and the allocators promise, given the calls so far. -/
structure Sound (ops : List (Op Address Id Status Details)) : Prop where
  owners : (t.ownerOctets.map OctetRow.owner).Nodup
  octets : (t.ownerOctets.map OctetRow.octet).Nodup
  octetRange : ∀ r ∈ t.ownerOctets, 1 ≤ r.octet ∧ r.octet ≤ 254
  usernames : (t.peers.map PeerRow.username).Nodup
  peerIps : (t.peers.map PeerRow.ipAddress).Nodup
  drawn : ∀ r ∈ t.peers, ∃ candidateIps, r.ipAddress ∈ candidateIps ∧
    .allocatePeer r.owner r.username r.publicKey candidateIps r.privateKey ∈ ops
  containerIds : (t.instances.map InstanceRow.containerId).Nodup
  keys : (t.instances.map InstanceRow.key).Nodup

end Promises

section Calls

variable [DecidableEq Address] [DecidableEq Id]

/-- What holds after a sequence of calls, whatever the next call is. -/
structure KeepsPromises (ops : List (Op Address Id Status Details)) : Prop where
  sound : Sound (tablesAfter ops) ops
  allocatesPeer : ∀ owner username publicKey candidateIps privateKey,
    PeerAllocated (tablesAfter ops) owner username publicKey candidateIps privateKey
      (allocatePeer owner username publicKey candidateIps privateKey (tablesAfter ops))
  allocatesOctet : ∀ owner,
    OctetAllocated (tablesAfter ops) owner (allocateOctet owner (tablesAfter ops))
  raisesUnchanged : ∀ (op : Op Address Id Status Details) err t',
    op.exec (tablesAfter ops) = (.error err, t') → t' = tablesAfter ops

end Calls

/-! ## One transaction is enough -/

section Octets

variable {t : Tables Address Id Status Details}

theorem find_octet_eq_some {o : Nat} (h : (List.range' 1 254).find?
      (fun o => !(t.ownerOctets.any fun r => r.octet = o)) = some o) :
    IsLeast {o | 1 ≤ o ∧ o ≤ 254 ∧ ∀ r ∈ t.ownerOctets, r.octet ≠ o} o := by
  rw [List.find?_range'_eq_some] at h
  obtain ⟨hfree, hrange, hleast⟩ := h
  rw [List.mem_range'_1] at hrange
  refine ⟨⟨hrange.1, by omega, by simpa using hfree⟩, ?_⟩
  rintro other ⟨hlow, -, hother⟩
  by_contra hlt
  have htaken := hleast other hlow (by omega)
  simp only [Bool.not_not, List.any_eq_true, decide_eq_true_eq] at htaken
  obtain ⟨r, hr, hoctet⟩ := htaken
  exact hother r hr hoctet

theorem find_octet_eq_none (h : (List.range' 1 254).find?
      (fun o => !(t.ownerOctets.any fun r => r.octet = o)) = none) :
    ∀ o, 1 ≤ o → o ≤ 254 → ∃ r ∈ t.ownerOctets, r.octet = o := by
  intro o hlow hhigh
  have htaken := List.find?_eq_none.mp h o (by rw [List.mem_range'_1]; omega)
  simpa using htaken

theorem allocateOctet_of_held {owner : Owner} {r : OctetRow}
    (h : (t.ownerOctets.find? fun r => r.owner = owner) = some r) :
    allocateOctet owner t = (.ok r.octet, t) := by
  simp only [allocateOctet, getOctet, conn, h, Option.map_some]

/-- Without another call in between the first attempt collides with nothing. -/
theorem allocateOctet_of_notHeld {owner : Owner} (h : ∀ r ∈ t.ownerOctets, r.owner ≠ owner) :
    allocateOctet owner t =
      match (List.range' 1 254).find? fun o => !(t.ownerOctets.any fun r => r.octet = o) with
      | none => (.error (.python (.runtimeError
          "docker subnet pool exhausted (254 owners already allocated)")), t)
      | some octet => (.ok octet, { t with ownerOctets := t.ownerOctets ++ [⟨owner, octet⟩] }) := by
  have hnone : (t.ownerOctets.find? fun r => r.owner = owner) = none := by simpa using h
  have hloop : allocateOctet owner t = allocateOctetLoop owner (253 + 1) none t := by
    simp only [allocateOctet, getOctet, conn, hnone, Option.map_none]
  rw [hloop, allocateOctetLoop]
  simp only [conn, octetAttempt]
  cases hfree : (List.range' 1 254).find? fun o => !(t.ownerOctets.any fun r => r.octet = o) with
  | none => rfl
  | some octet =>
    obtain ⟨⟨hlow, hhigh, hfresh⟩, -⟩ := find_octet_eq_some hfree
    have hrange : ¬ (octet < 1 ∨ 254 < octet) := by omega
    have howner : ¬ (t.ownerOctets.any fun r => r.owner = owner) = true := by simpa using h
    have hoctet : ¬ (t.ownerOctets.any fun r => r.octet = octet) = true := by simpa using hfresh
    have hinsert : insertOctet ⟨owner, octet⟩ t =
        (.ok (), { t with ownerOctets := t.ownerOctets ++ [⟨owner, octet⟩] }) := by
      rw [insertOctet, if_neg hrange, if_neg howner, if_neg hoctet]
    simp only [hinsert]

/-- **The octets.** -/
theorem allocateOctet_allocated (t : Tables Address Id Status Details) (owner : Owner) :
    OctetAllocated t owner (allocateOctet owner t) := by
  cases hown : t.ownerOctets.find? fun r => r.owner = owner with
  | some r =>
    have howner : r.owner = owner := by simpa using List.find?_some hown
    subst howner
    rw [allocateOctet_of_held hown]
    exact .held (List.mem_of_find?_eq_some hown)
  | none =>
    have hnone : ∀ r ∈ t.ownerOctets, r.owner ≠ owner := by simpa using hown
    rw [allocateOctet_of_notHeld hnone]
    cases hfree : (List.range' 1 254).find? fun o => !(t.ownerOctets.any fun r => r.octet = o) with
    | none => exact .exhausted hnone (find_octet_eq_none hfree)
    | some octet => exact .inserted hnone (find_octet_eq_some hfree)

end Octets

section Peers

variable [DecidableEq Address] {t : Tables Address Id Status Details}

theorem find_ip_eq_some {candidateIps : List Address} {ip : Address}
    (h : candidateIps.find? (fun ip => !(t.peers.any fun r => r.ipAddress = ip)) = some ip) :
    FirstUnused t candidateIps ip := by
  obtain ⟨hfree, before, rest, hcandidates, hbefore⟩ := List.find?_eq_some_iff_append.mp h
  refine ⟨by simpa using hfree, before, rest, hcandidates, ?_⟩
  intro other hother
  simpa using hbefore other hother

/-- The first unused candidate collides with nothing, so only the username can. -/
theorem allocatePeer_eq_match (owner : Owner) (username publicKey : String)
    (candidateIps : List Address) (privateKey : Option String) :
    allocatePeer owner username publicKey candidateIps privateKey t =
      match candidateIps.find? fun ip => !(t.peers.any fun r => r.ipAddress = ip) with
      | none => (.error (.python (.runtimeError "WireGuard subnet is exhausted")), t)
      | some ip =>
        if t.peers.any fun r => r.username = username then
          (.error (.python (.valueError s!"peer '{username}' already exists")), t)
        else (.ok ⟨owner, username, ip, publicKey, privateKey⟩,
          { t with peers := t.peers ++ [⟨owner, username, ip, publicKey, privateKey⟩] }) := by
  obtain ⟨left, hattempts⟩ : ∃ left, max 8 candidateIps.length = left + 1 :=
    ⟨max 8 candidateIps.length - 1, by omega⟩
  unfold allocatePeer
  simp only [hattempts, allocatePeerLoop, conn, peerAttempt]
  cases hfree : candidateIps.find? fun ip => !(t.peers.any fun r => r.ipAddress = ip) with
  | none => rfl
  | some ip =>
    have haddress : ¬ (t.peers.any fun r => r.ipAddress = ip) = true := by
      simpa using (find_ip_eq_some hfree).1
    by_cases hname : (t.peers.any fun r => r.username = username) = true
    · have hdispatch : containsText "username" (lowerText Constraint.username.message) = true := by
        decide +kernel
      simp [insertPeer, hname, hdispatch]
    · simp [insertPeer, hname, haddress]

/-- **The addresses.** -/
theorem allocatePeer_allocated (t : Tables Address Id Status Details) (owner : Owner)
    (username publicKey : String) (candidateIps : List Address) (privateKey : Option String) :
    PeerAllocated t owner username publicKey candidateIps privateKey
      (allocatePeer owner username publicKey candidateIps privateKey t) := by
  rw [allocatePeer_eq_match]
  cases hfree : candidateIps.find? fun ip => !(t.peers.any fun r => r.ipAddress = ip) with
  | none =>
    refine .exhausted ?_
    intro ip hip
    simpa using List.find?_eq_none.mp hfree ip hip
  | some ip =>
    have hunused := find_ip_eq_some hfree
    by_cases hname : (t.peers.any fun r => r.username = username) = true
    · simp only [hname, if_true]
      exact .alreadyExists hunused (by simpa using hname)
    · simp only [hname, Bool.false_eq_true, if_false]
      exact .inserted hunused (by simpa using hname)

end Peers

section Instances

variable [DecidableEq Id] {t : Tables Address Id Status Details}

/-- A row is stored if it is new in both unique columns, and refused otherwise. -/
theorem addInstance_cases (row : InstanceRow Id Status Details) :
    (addInstance row t = (.ok row, { t with instances := t.instances ++ [row] }) ∧
      (∀ r ∈ t.instances, r.containerId ≠ row.containerId) ∧
      ∀ r ∈ t.instances, r.key ≠ row.key) ∨
    ∃ constraint, addInstance row t = (.error (.python (.valueError
      s!"instance record collision: {Constraint.message constraint}")), t) := by
  by_cases hid : (t.instances.any fun r => r.containerId = row.containerId) = true
  · exact Or.inr ⟨.containerId, by simp only [addInstance, conn, insertInstance, hid, if_true]⟩
  · by_cases hkey : (t.instances.any fun r => r.key = row.key) = true
    · exact Or.inr ⟨.key, by simp [addInstance, conn, insertInstance, hid, hkey]⟩
    · refine Or.inl ⟨by simp [addInstance, conn, insertInstance, hid, hkey], ?_, ?_⟩
      · simpa using hid
      · simpa using hkey

end Instances

/-! ## Every call keeps the promises -/

section Invariant

variable [DecidableEq Address] [DecidableEq Id] {t : Tables Address Id Status Details}
  {ops : List (Op Address Id Status Details)}

/-- **A method that raises** has rolled its transactions back. -/
theorem exec_error {op : Op Address Id Status Details} {err : DbError}
    {t' : Tables Address Id Status Details} (h : op.exec t = (.error err, t')) : t' = t := by
  cases op with
  | allocatePeer owner username publicKey candidateIps privateKey =>
    have hallocated := allocatePeer_allocated t owner username publicKey candidateIps privateKey
    simp only [Op.exec, Ended.as, Prod.mk.injEq] at h
    rw [← h.2]
    generalize allocatePeer owner username publicKey candidateIps privateKey t = ended at h hallocated ⊢
    cases hallocated with
    | inserted _ _ => cases h.1
    | alreadyExists _ _ => rfl
    | exhausted _ => rfl
  | allocateOctet owner =>
    have hallocated := allocateOctet_allocated t owner
    simp only [Op.exec, Ended.as, Prod.mk.injEq] at h
    rw [← h.2]
    generalize allocateOctet owner t = ended at h hallocated ⊢
    cases hallocated with
    | held _ => rfl
    | inserted _ _ => cases h.1
    | exhausted _ _ => rfl
  | addInstance row =>
    simp only [Op.exec, Ended.as, Prod.mk.injEq] at h
    rcases addInstance_cases (t := t) row with ⟨hadded, -⟩ | ⟨constraint, hrefused⟩
    · rw [hadded] at h
      cases h.1
    · rw [← h.2, hrefused]
  | removePeer _ | freeOctet _ | removeInstance _ | updateInstanceStatus _ _ => cases h

omit [DecidableEq Address] [DecidableEq Id] in
theorem Sound.empty : Sound (.empty : Tables Address Id Status Details) [] :=
  ⟨List.nodup_nil, List.nodup_nil, (fun _ h => by cases h), List.nodup_nil, List.nodup_nil,
    (fun _ h => by cases h), List.nodup_nil, List.nodup_nil⟩

omit [DecidableEq Address] [DecidableEq Id] in
theorem Sound.more (h : Sound t ops) (op : Op Address Id Status Details) : Sound t (ops ++ [op]) := by
  refine { h with drawn := ?_ }
  intro r hr
  obtain ⟨candidateIps, hmem, hcall⟩ := h.drawn r hr
  exact ⟨candidateIps, hmem, List.mem_append_left _ hcall⟩

omit [DecidableEq Address] in
/-- Changing a status changes neither unique column. -/
theorem map_updateInstanceStatus {β : Type} (f : InstanceRow Id Status Details → β)
    (hf : ∀ (row : InstanceRow Id Status Details) status, f { row with status := status } = f row)
    (containerId : Id) (status : Status) :
    (updateInstanceStatus containerId status t).2.instances.map f = t.instances.map f := by
  simp only [updateInstanceStatus, conn, List.map_map]
  apply List.map_congr_left
  intro row _
  simp only [Function.comp_apply]
  split
  · exact hf row status
  · rfl

/-- **One call.** -/
theorem Sound.step (h : Sound t ops) (op : Op Address Id Status Details) :
    Sound (op.exec t).2 (ops ++ [op]) := by
  have hmore := h.more op
  cases op with
  | allocatePeer owner username publicKey candidateIps privateKey =>
    have hallocated := allocatePeer_allocated t owner username publicKey candidateIps privateKey
    simp only [Op.exec, Ended.as]
    generalize allocatePeer owner username publicKey candidateIps privateKey t = ended at hallocated ⊢
    cases hallocated with
    | @inserted ip hunused hname =>
      obtain ⟨hfree, before, rest, hcandidates, -⟩ := hunused
      refine { hmore with
        usernames := nodup_map_append_singleton h.usernames hname
        peerIps := nodup_map_append_singleton h.peerIps hfree
        drawn := ?_ }
      intro r hr
      rcases List.mem_append.mp hr with hold | hnew
      · exact hmore.drawn r hold
      · obtain rfl := List.mem_singleton.mp hnew
        exact ⟨candidateIps, by simp [hcandidates], by simp⟩
    | alreadyExists _ _ => exact hmore
    | exhausted _ => exact hmore
  | removePeer username =>
    exact { hmore with
      usernames := nodup_map_filter _ h.usernames
      peerIps := nodup_map_filter _ h.peerIps
      drawn := fun r hr => hmore.drawn r (List.mem_of_mem_filter hr) }
  | allocateOctet owner =>
    have hallocated := allocateOctet_allocated t owner
    simp only [Op.exec, Ended.as]
    generalize allocateOctet owner t = ended at hallocated ⊢
    cases hallocated with
    | held _ => exact hmore
    | @inserted octet hnone hleast =>
      obtain ⟨⟨hlow, hhigh, hfree⟩, -⟩ := hleast
      refine { hmore with
        owners := nodup_map_append_singleton h.owners hnone
        octets := nodup_map_append_singleton h.octets hfree
        octetRange := ?_ }
      intro r hr
      rcases List.mem_append.mp hr with hold | hnew
      · exact h.octetRange r hold
      · obtain rfl := List.mem_singleton.mp hnew
        exact ⟨hlow, hhigh⟩
    | exhausted _ _ => exact hmore
  | freeOctet owner =>
    exact { hmore with
      owners := nodup_map_filter _ h.owners
      octets := nodup_map_filter _ h.octets
      octetRange := fun r hr => h.octetRange r (List.mem_of_mem_filter hr) }
  | addInstance row =>
    simp only [Op.exec, Ended.as]
    rcases addInstance_cases (t := t) row with ⟨hadded, hid, hkey⟩ | ⟨constraint, hrefused⟩
    · rw [hadded]
      exact { hmore with
        containerIds := nodup_map_append_singleton h.containerIds hid
        keys := nodup_map_append_singleton h.keys hkey }
    · rw [hrefused]
      exact hmore
  | removeInstance containerId =>
    exact { hmore with
      containerIds := nodup_map_filter _ h.containerIds
      keys := nodup_map_filter _ h.keys }
  | updateInstanceStatus containerId status =>
    have hids := map_updateInstanceStatus (t := t) InstanceRow.containerId (fun _ _ => rfl)
      containerId status
    have hkeys := map_updateInstanceStatus (t := t) InstanceRow.key (fun _ _ => rfl) containerId status
    exact { hmore with
      containerIds := hids ▸ h.containerIds
      keys := hkeys ▸ h.keys }

theorem tablesAfter_append (op : Op Address Id Status Details) :
    tablesAfter (ops ++ [op]) = (op.exec (tablesAfter ops)).2 := by
  simp [tablesAfter]

theorem sound_tablesAfter (ops : List (Op Address Id Status Details)) :
    Sound (tablesAfter ops) ops := by
  induction ops using List.reverseRecOn with
  | nil => exact .empty
  | append_singleton ops op ih =>
    rw [tablesAfter_append]
    exact ih.step op

/-- **The tables and the allocators keep their promises**, after every sequence of calls. -/
theorem keepsPromises (ops : List (Op Address Id Status Details)) : KeepsPromises ops :=
  ⟨sound_tablesAfter ops, allocatePeer_allocated _, allocateOctet_allocated _,
    fun _ _ _ h => exec_error h⟩

end Invariant

/-! ## The daemon's tables

The functions on `Db` are these methods at the daemon's own columns: an allocator there takes the first
free value at once, which the transactions here come to as well. -/

/-- The columns of `instances` without a constraint, other than the status. -/
structure InstanceDetails where
  containerName : String
  assignedIp : Option IPv4Address
  ports : List String
  expiresAt : Option String
  publishedPorts : Option (List (String × Nat))
deriving DecidableEq, Repr

abbrev DaemonTables : Type := Tables IPv4Address ContainerId EdoPlugin.Status InstanceDetails

def peerRow (peer : Peer) : PeerRow IPv4Address :=
  ⟨peer.owner, peer.username, peer.ipAddress, peer.publicKey, peer.privateKey⟩

def octetRow (row : OwnerOctet) : OctetRow := ⟨row.owner, row.octet⟩

def instanceRow (row : Instance) : InstanceRow ContainerId EdoPlugin.Status InstanceDetails where
  containerId := row.containerId
  owner := row.owner
  challengeRef := row.challengeRef
  status := row.status
  details := ⟨row.containerName, row.assignedIp, row.ports, row.expiresAt, row.publishedPorts⟩

def tables (db : Db) : DaemonTables where
  peers := db.peers.map peerRow
  ownerOctets := db.ownerOctets.map octetRow
  instances := db.instances.map instanceRow

/-- What a function on `Db` ends with, as the end of a method. -/
def ended {α β : Type} (value : α → β) (outcome : Except PyErr α × Db) : Ended DaemonTables β :=
  ((outcome.1.mapError DbError.python).map value, tables outcome.2)

section Daemon

variable (db : Db)

theorem any_octetRow (octet : Octet) :
    ((tables db).ownerOctets.any fun r => r.octet = octet.val) =
      db.ownerOctets.any fun r => r.octet = octet := by
  rw [Bool.eq_iff_iff]
  simp only [tables, List.any_map, List.any_eq_true, Function.comp_apply, decide_eq_true_eq,
    Subtype.ext_iff]
  rfl

theorem range'_eq_map_allOctets : List.range' 1 254 = allOctets.map Subtype.val := by
  decide +kernel

theorem find_octet_tables :
    ((List.range' 1 254).find? fun o => !((tables db).ownerOctets.any fun r => r.octet = o)) =
      db.firstFreeOctet.map Subtype.val := by
  rw [range'_eq_map_allOctets, List.find?_map, firstFreeOctet]
  simp only [Function.comp_def, any_octetRow]

theorem find_owner_tables (owner : Owner) :
    ((tables db).ownerOctets.find? fun r => r.owner = owner).map OctetRow.octet =
      (db.getOctet owner).map Subtype.val := by
  simp only [tables, Db.getOctet, List.find?_map, Option.map_map]
  rfl

/-- **The octet allocator** of the daemon. -/
theorem allocateOctet_tables (owner : Owner) :
    allocateOctet owner (tables db) = ended Subtype.val (db.allocateOctet owner) := by
  rw [allocateOctet_eq]
  have hfind := find_owner_tables db owner
  cases hown : db.getOctet owner with
  | some octet =>
    rw [hown, Option.map_some, Option.map_eq_some_iff] at hfind
    obtain ⟨r, hr, hoctet⟩ := hfind
    rw [allocateOctet_of_held hr, hoctet]
    rfl
  | none =>
    rw [hown, Option.map_none, Option.map_eq_none_iff] at hfind
    rw [allocateOctet_of_notHeld (by simpa using hfind), find_octet_tables]
    cases db.firstFreeOctet with
    | none => rfl
    | some octet => simp [ended, tables, octetRow, Except.map, Except.mapError]

/-- **The peer allocator** of the daemon. -/
theorem allocatePeer_tables (owner : Owner) (username publicKey : String)
    (candidateIps : List IPv4Address) (privateKey : Option String) :
    allocatePeer owner username publicKey candidateIps privateKey (tables db) =
      ended peerRow (db.allocatePeer owner username publicKey candidateIps privateKey) := by
  have hip : (candidateIps.find? fun ip => !((tables db).peers.any fun r => r.ipAddress = ip)) =
      db.firstFreeIp candidateIps := by
    rw [firstFreeIp]
    congr 1
    funext ip
    rw [Bool.eq_iff_iff]
    simp only [tables, List.any_map, Bool.not_eq_true', List.any_eq_false, Function.comp_apply,
      decide_eq_true_eq]
    rfl
  have hname : ((tables db).peers.any fun r => r.username = username) =
      (db.getPeer username).isSome := by
    rw [Bool.eq_iff_iff]
    simp only [tables, getPeer, List.isSome_find?, List.any_map, List.any_eq_true,
      Function.comp_apply, decide_eq_true_eq]
    rfl
  rw [allocatePeer_eq_match, Db.allocatePeer_eq, hip]
  cases db.firstFreeIp candidateIps with
  | none => rfl
  | some ip =>
    simp only [hname]
    cases db.getPeer username with
    | none => simp [ended, tables, peerRow, Except.map, Except.mapError]
    | some peer => rfl

/-- **The instance table** of the daemon. -/
theorem addInstance_tables (row : Instance) :
    addInstance (instanceRow row) (tables db) = ended instanceRow (db.addInstance row) := by
  have hid : ((tables db).instances.any fun r => r.containerId = (instanceRow row).containerId) =
      db.instances.any fun r => r.containerId = row.containerId := by
    rw [Bool.eq_iff_iff]
    simp only [tables, List.any_map, List.any_eq_true, Function.comp_apply, decide_eq_true_eq]
    rfl
  have hkey : ((tables db).instances.any fun r => r.key = (instanceRow row).key) =
      db.instances.any fun r => r.key = row.key := by
    rw [Bool.eq_iff_iff]
    simp only [tables, List.any_map, List.any_eq_true, Function.comp_apply, decide_eq_true_eq]
    rfl
  rw [addInstance, conn, insertInstance, hid, hkey, Db.addInstance, Db.insertInstance]
  by_cases hid' : (db.instances.any fun r => r.containerId = row.containerId) = true
  · have hmsg : s!"instance record collision: {Constraint.containerId.message}" =
        "instance record collision: UNIQUE constraint failed: instances.container_id" := by decide
    simp only [hid', if_true, hmsg]
    rfl
  · by_cases hkey' : (db.instances.any fun r => r.key = row.key) = true
    · have hmsg : s!"instance record collision: {Constraint.key.message}" =
          "instance record collision: UNIQUE constraint failed: " ++
            "instances.owner_type, instances.owner_id, instances.challenge_ref" := by decide
      simp only [hid', hkey', if_true, Bool.false_eq_true, if_false, hmsg]
      rfl
    · simp [hid', hkey', ended, Except.map, Except.mapError, tables]

end Daemon

end EdoPlugin.DatabaseManager
