import EdoPlugin.Database

/-!
# What the tables guarantee

The unique constraints of the schema, as an invariant every `DatabaseManager` method preserves, and
one closed description of each allocator: its retry loop never needs a second attempt when no other
transaction comes in between.
-/

namespace EdoPlugin

namespace Db

/-! ## Allocators without their loops -/

theorem getOctet_eq_none_iff {db : Db} {owner : Owner} :
    db.getOctet owner = none ↔ ∀ row ∈ db.ownerOctets, row.owner ≠ owner := by
  simp [getOctet]

theorem mem_of_getOctet {db : Db} {owner : Owner} {octet : Octet}
    (h : db.getOctet owner = some octet) : ⟨owner, octet⟩ ∈ db.ownerOctets := by
  unfold getOctet at h
  rw [Option.map_eq_some_iff] at h
  obtain ⟨row, hfind, rfl⟩ := h
  have howner : row.owner = owner := by simpa using List.find?_some hfind
  have hmem := List.mem_of_find?_eq_some hfind
  rw [← howner]
  exact hmem

/-- An octet that `firstFreeOctet` returns is held by nobody. -/
theorem firstFreeOctet_not_held {db : Db} {octet : Octet} (h : db.firstFreeOctet = some octet) :
    ∀ row ∈ db.ownerOctets, row.octet ≠ octet := by
  have hfree := List.find?_some h
  simpa using hfree

theorem allocateOctet_eq (db : Db) (owner : Owner) :
    db.allocateOctet owner = match db.getOctet owner with
      | some octet => (.ok octet, db)
      | none => match db.firstFreeOctet with
        | none => (.error (.runtimeError
            "docker subnet pool exhausted (254 owners already allocated)"), db)
        | some octet =>
          (.ok octet, { db with ownerOctets := db.ownerOctets ++ [⟨owner, octet⟩] }) := by
  unfold allocateOctet
  cases hown : db.getOctet owner with
  | some octet => rfl
  | none =>
    rw [allocateOctetAttempts]
    cases hfree : db.firstFreeOctet with
    | none => rfl
    | some octet =>
      have howner : ¬ (db.ownerOctets.any fun r => r.owner = owner) = true := by
        simpa using getOctet_eq_none_iff.mp hown
      have hoctet : ¬ (db.ownerOctets.any fun r => r.octet = octet) = true := by
        simpa using firstFreeOctet_not_held hfree
      simp [insertOctet, howner, hoctet]

theorem firstFreeIp_not_used {db : Db} {candidateIps : List IPv4Address} {ip : IPv4Address}
    (h : db.firstFreeIp candidateIps = some ip) : ∀ p ∈ db.peers, p.ipAddress ≠ ip := by
  have hfree := List.find?_some h
  simpa using hfree

theorem getPeer_eq_none_iff {db : Db} {username : String} :
    db.getPeer username = none ↔ ∀ p ∈ db.peers, p.username ≠ username := by
  simp [getPeer]

theorem findInstance_eq_none_iff {db : Db} {owner : Owner} {challengeRef : String} :
    db.findInstance owner challengeRef = none ↔
      ∀ row ∈ db.instances, row.key ≠ (owner, challengeRef) := by
  simp [findInstance]

theorem mem_of_getPeer {db : Db} {username : String} {peer : Peer}
    (h : db.getPeer username = some peer) : peer ∈ db.peers ∧ peer.username = username :=
  ⟨List.mem_of_find?_eq_some h, by simpa using List.find?_some h⟩

theorem allocatePeer_eq (db : Db) (owner : Owner) (username publicKey : String)
    (candidateIps : List IPv4Address) (privateKey : Option String) :
    db.allocatePeer owner username publicKey candidateIps privateKey =
      match db.firstFreeIp candidateIps with
      | none => (.error (.runtimeError "WireGuard subnet is exhausted"), db)
      | some ip =>
        match db.getPeer username with
        | some _ => (.error (.valueError s!"peer '{username}' already exists"), db)
        | none => (.ok ⟨owner, username, ip, publicKey, privateKey⟩,
            { db with peers := db.peers ++ [⟨owner, username, ip, publicKey, privateKey⟩] }) := by
  unfold allocatePeer
  obtain ⟨attempts, hattempts⟩ : ∃ n, max 8 candidateIps.length = n + 1 :=
    ⟨max 8 candidateIps.length - 1, by omega⟩
  rw [hattempts, allocatePeerAttempts]
  cases hfree : db.firstFreeIp candidateIps with
  | none => rfl
  | some ip =>
    have hip : ¬ (db.peers.any fun p => p.ipAddress = ip) = true := by
      simpa using firstFreeIp_not_used hfree
    cases hpeer : db.getPeer username with
    | none =>
      have hname : ¬ (db.peers.any fun p => p.username = username) = true := by
        simpa using getPeer_eq_none_iff.mp hpeer
      simp [insertPeer, hip, hname]
    | some peer =>
      obtain ⟨hmem, hname⟩ := mem_of_getPeer hpeer
      have hany : (db.peers.any fun p => p.username = username) = true := by
        simpa using ⟨peer, hmem, hname⟩
      simp [insertPeer, hany]

/-! ## The unique constraints -/

/-- The constraints of the schema: the rows are pairwise distinct in every unique column. -/
structure WellFormed (db : Db) : Prop where
  usernames : (db.peers.map Peer.username).Nodup
  peerIps : (db.peers.map Peer.ipAddress).Nodup
  owners : (db.ownerOctets.map OwnerOctet.owner).Nodup
  octets : (db.ownerOctets.map OwnerOctet.octet).Nodup
  containerIds : (db.instances.map Instance.containerId).Nodup
  keys : (db.instances.map Instance.key).Nodup

theorem WellFormed.empty : Db.empty.WellFormed := by
  constructor <;> exact List.nodup_nil

/-- Distinct rows have distinct values in a unique column. -/
theorem eq_of_nodup_map {α β : Type} {f : α → β} {rows : List α} (h : (rows.map f).Nodup)
    {a b : α} (ha : a ∈ rows) (hb : b ∈ rows) (hab : f a = f b) : a = b :=
  List.inj_on_of_nodup_map h ha hb hab

theorem filter_eq_singleton {α β : Type} [DecidableEq β] {f : α → β} {rows : List α}
    (h : (rows.map f).Nodup) {row : α} (hrow : row ∈ rows) :
    rows.filter (fun other => f other = f row) = [row] := by
  induction rows with
  | nil => cases hrow
  | cons first rest ih =>
    rw [List.map_cons, List.nodup_cons] at h
    rcases List.mem_cons.mp hrow with rfl | hrest
    · have hnone : rest.filter (fun other => f other = f row) = [] := by
        rw [List.filter_eq_nil_iff]
        intro other hother hsame
        exact h.1 (List.mem_map.mpr ⟨other, hother, of_decide_eq_true hsame⟩)
      rw [List.filter_cons_of_pos (by simp), hnone]
    · have hne : f first ≠ f row := fun heq => h.1 (List.mem_map.mpr ⟨row, hrest, heq.symm⟩)
      rw [List.filter_cons_of_neg (by simpa using hne), ih h.2 hrest]

theorem nodup_map_append_singleton {α β : Type} {f : α → β} {rows : List α} {row : α}
    (h : (rows.map f).Nodup) (hnew : ∀ other ∈ rows, f other ≠ f row) :
    ((rows ++ [row]).map f).Nodup := by
  rw [List.map_append, List.map_singleton, List.nodup_append]
  refine ⟨h, List.nodup_singleton _, ?_⟩
  intro x hx y hy
  obtain ⟨other, hother, rfl⟩ := List.mem_map.mp hx
  rw [List.mem_singleton.mp hy]
  exact hnew other hother

theorem nodup_map_filter {α β : Type} {f : α → β} {rows : List α} (keep : α → Bool)
    (h : (rows.map f).Nodup) : ((rows.filter keep).map f).Nodup :=
  h.sublist (List.filter_sublist.map f)

/-- With one row for an owner, `getOctet` finds exactly the octet of that row. -/
theorem getOctet_eq_some_iff {db : Db} (h : (db.ownerOctets.map OwnerOctet.owner).Nodup)
    {owner : Owner} {octet : Octet} :
    db.getOctet owner = some octet ↔ ⟨owner, octet⟩ ∈ db.ownerOctets := by
  refine ⟨mem_of_getOctet, ?_⟩
  intro hmem
  cases hget : db.getOctet owner with
  | none => exact absurd rfl (getOctet_eq_none_iff.mp hget _ hmem)
  | some octet' =>
    have heq := eq_of_nodup_map h (mem_of_getOctet hget) hmem rfl
    rw [OwnerOctet.mk.injEq] at heq
    rw [heq.2]

theorem WellFormed.allocatePeer {db : Db} (h : db.WellFormed) (owner : Owner)
    (username publicKey : String) (candidateIps : List IPv4Address)
    (privateKey : Option String) :
    (db.allocatePeer owner username publicKey candidateIps privateKey).2.WellFormed := by
  rw [allocatePeer_eq]
  cases hfree : db.firstFreeIp candidateIps with
  | none => exact h
  | some ip =>
    cases hpeer : db.getPeer username with
    | some _ => exact h
    | none =>
      exact { h with
        usernames := nodup_map_append_singleton h.usernames (getPeer_eq_none_iff.mp hpeer)
        peerIps := nodup_map_append_singleton h.peerIps (firstFreeIp_not_used hfree) }

theorem WellFormed.allocateOctet {db : Db} (h : db.WellFormed) (owner : Owner) :
    (db.allocateOctet owner).2.WellFormed := by
  rw [allocateOctet_eq]
  cases hown : db.getOctet owner with
  | some _ => exact h
  | none =>
    cases hfree : db.firstFreeOctet with
    | none => exact h
    | some octet =>
      exact { h with
        owners := nodup_map_append_singleton h.owners (getOctet_eq_none_iff.mp hown)
        octets := nodup_map_append_singleton h.octets (firstFreeOctet_not_held hfree) }

/-- `addInstance` either stores the row, which is new in both unique columns, or raises. -/
theorem addInstance_cases (db : Db) (row : Instance) :
    (db.addInstance row = (.ok row, { db with instances := db.instances ++ [row] }) ∧
      (∀ r ∈ db.instances, r.containerId ≠ row.containerId) ∧
      (∀ r ∈ db.instances, r.key ≠ row.key)) ∨
    ∃ msg, db.addInstance row = (.error (.valueError msg), db) := by
  unfold addInstance insertInstance
  by_cases hid : (db.instances.any fun r => r.containerId = row.containerId) = true
  · right
    simp [hid]
  · by_cases hkey : (db.instances.any fun r => r.key = row.key) = true
    · right
      simp [hid, hkey]
    · left
      refine ⟨by simp [hid, hkey], ?_, ?_⟩
      · simpa using hid
      · simpa using hkey

theorem WellFormed.addInstance {db : Db} (h : db.WellFormed) (row : Instance) :
    (db.addInstance row).2.WellFormed := by
  rcases db.addInstance_cases row with ⟨heq, hid, hkey⟩ | ⟨msg, heq⟩
  · rw [heq]
    exact { h with
      containerIds := nodup_map_append_singleton h.containerIds hid
      keys := nodup_map_append_singleton h.keys hkey }
  · rw [heq]
    exact h

/-- Updating a status changes neither unique column. -/
theorem map_updateInstanceStatus {β : Type} (f : Instance → β)
    (hf : ∀ (row : Instance) status, f { row with status := status } = f row)
    (db : Db) (containerId : ContainerId) (status : Status) :
    ((db.updateInstanceStatus containerId status).2.instances.map f) = db.instances.map f := by
  unfold updateInstanceStatus
  rw [List.map_map]
  apply List.map_congr_left
  intro row _
  simp only [Function.comp_apply]
  split
  · exact hf row status
  · rfl

/-- **Every method keeps the constraints of the schema.** -/
theorem WellFormed.exec {db : Db} (h : db.WellFormed) (op : DbOp) : (op.exec db).2.WellFormed := by
  cases op with
  | allocatePeer owner username publicKey candidateIps privateKey =>
    exact h.allocatePeer owner username publicKey candidateIps privateKey
  | removePeer username =>
    exact { h with
      usernames := nodup_map_filter _ h.usernames
      peerIps := nodup_map_filter _ h.peerIps }
  | allocateOctet owner => exact h.allocateOctet owner
  | freeOctet owner =>
    exact { h with
      owners := nodup_map_filter _ h.owners
      octets := nodup_map_filter _ h.octets }
  | addInstance row => exact h.addInstance row
  | removeInstance containerId =>
    exact { h with
      containerIds := nodup_map_filter _ h.containerIds
      keys := nodup_map_filter _ h.keys }
  | updateInstanceStatus containerId status =>
    exact { h with
      containerIds := by
        have heq := map_updateInstanceStatus Instance.containerId (fun _ _ => rfl) db
          containerId status
        exact heq ▸ h.containerIds
      keys := by
        have heq := map_updateInstanceStatus Instance.key (fun _ _ => rfl) db containerId status
        exact heq ▸ h.keys }
  | getPeer _ | getAllPeers | peersGroupedByOwner | getOctet _ | getAllOwnerOctets
  | findInstance _ _ | getActiveInstances | getAllInstances | getUsedInstanceIps _
  | countInstancesForOwner _ => exact h

/-! ## What a method can change -/

/-- An octet belongs to one owner. -/
theorem WellFormed.getOctet_inj {db : Db} (h : db.WellFormed) {owner owner' : Owner}
    {octet : Octet} (hheld : db.getOctet owner = some octet)
    (hheld' : db.getOctet owner' = some octet) : owner = owner' :=
  congrArg OwnerOctet.owner
    (eq_of_nodup_map h.octets (mem_of_getOctet hheld) (mem_of_getOctet hheld') rfl)

theorem getOctet_freeOctet {db : Db} {owner other : Owner} (hne : other ≠ owner) :
    (db.freeOctet owner).2.getOctet other = db.getOctet other := by
  unfold freeOctet getOctet
  rw [List.find?_filter]
  congr 2
  funext row
  by_cases howner : row.owner = other
  · simp [howner, hne]
  · simp [howner]

theorem getOctet_allocateOctet {db : Db} {owner other : Owner} {octet : Octet}
    (hheld : db.getOctet other = some octet) :
    (db.allocateOctet owner).2.getOctet other = some octet := by
  rw [allocateOctet_eq]
  cases hown : db.getOctet owner with
  | some _ => exact hheld
  | none =>
    cases hfree : db.firstFreeOctet with
    | none => exact hheld
    | some free =>
      unfold getOctet at hheld ⊢
      rw [List.find?_append, Option.map_or, hheld, Option.some_or]

/-- What `allocateOctet` returns, the owner holds. -/
theorem getOctet_of_allocateOctet {db : Db} {owner : Owner} {octet : Octet}
    (h : (db.allocateOctet owner).1 = .ok octet) :
    (db.allocateOctet owner).2.getOctet owner = some octet := by
  rw [allocateOctet_eq] at h ⊢
  cases hown : db.getOctet owner with
  | some held =>
    rw [hown] at h
    cases h
    exact hown
  | none =>
    rw [hown] at h
    cases hfree : db.firstFreeOctet with
    | none =>
      rw [hfree] at h
      cases h
    | some free =>
      rw [hfree] at h
      cases h
      have hnone : db.ownerOctets.find? (fun row => row.owner = owner) = none := by
        simpa [getOctet] using hown
      simp [getOctet, List.find?_append, hnone]

/-- Only `freeOctet` takes an octet away. -/
theorem getOctet_exec {db : Db} {op : DbOp} {owner : Owner} {octet : Octet}
    (hheld : db.getOctet owner = some octet) (hfree : op ≠ .freeOctet owner) :
    (op.exec db).2.getOctet owner = some octet := by
  cases op with
  | allocateOctet other => exact getOctet_allocateOctet hheld
  | freeOctet other =>
    have hne : owner ≠ other := fun heq => hfree (heq ▸ rfl)
    exact (getOctet_freeOctet hne).trans hheld
  | allocatePeer other username publicKey candidateIps privateKey =>
    simp only [DbOp.exec, allocatePeer_eq]
    cases db.firstFreeIp candidateIps with
    | none => exact hheld
    | some ip => cases db.getPeer username <;> exact hheld
  | addInstance row =>
    rcases db.addInstance_cases row with ⟨heq, -⟩ | ⟨msg, heq⟩
    · simp only [DbOp.exec, heq]
      exact hheld
    · simp only [DbOp.exec, heq]
      exact hheld
  | _ => exact hheld

/-- Only `addInstance` brings a row that was not there with the same key, address and container. -/
theorem instances_exec {db : Db} {op : DbOp} {row : Instance}
    (hrow : row ∈ (op.exec db).2.instances) : op = .addInstance row ∨
      ∃ old ∈ db.instances, row.key = old.key ∧ row.assignedIp = old.assignedIp ∧
        row.containerId = old.containerId := by
  cases op with
  | addInstance new =>
    rcases db.addInstance_cases new with ⟨heq, -⟩ | ⟨msg, heq⟩
    · simp only [DbOp.exec, heq] at hrow
      rcases List.mem_append.mp hrow with hold | hnew
      · exact Or.inr ⟨row, hold, rfl, rfl, rfl⟩
      · rw [List.mem_singleton.mp hnew]
        exact Or.inl rfl
    · simp only [DbOp.exec, heq] at hrow
      exact Or.inr ⟨row, hrow, rfl, rfl, rfl⟩
  | removeInstance containerId =>
    exact Or.inr ⟨row, List.mem_of_mem_filter hrow, rfl, rfl, rfl⟩
  | updateInstanceStatus containerId status =>
    obtain ⟨old, hold, rfl⟩ := List.mem_map.mp hrow
    refine Or.inr ⟨old, hold, ?_⟩
    split <;> exact ⟨rfl, rfl, rfl⟩
  | allocateOctet owner =>
    simp only [DbOp.exec, allocateOctet_eq] at hrow
    refine Or.inr ⟨row, ?_, rfl, rfl, rfl⟩
    cases hown : db.getOctet owner with
    | some octet => simpa [hown] using hrow
    | none => cases hfree : db.firstFreeOctet <;> simpa [hown, hfree] using hrow
  | allocatePeer owner username publicKey candidateIps privateKey =>
    simp only [DbOp.exec, allocatePeer_eq] at hrow
    refine Or.inr ⟨row, ?_, rfl, rfl, rfl⟩
    cases hip : db.firstFreeIp candidateIps with
    | none => simpa [hip] using hrow
    | some ip => cases hpeer : db.getPeer username <;> simpa [hip, hpeer] using hrow
  | _ => exact Or.inr ⟨row, hrow, rfl, rfl, rfl⟩

/-! ## The two dictionaries of the firewall -/

theorem mem_getAllOwnerOctets {db : Db} {row : OwnerOctet} :
    row ∈ db.getAllOwnerOctets ↔ row ∈ db.ownerOctets := by
  unfold getAllOwnerOctets
  exact List.mem_insertionSort _

theorem WellFormed.getAllOwnerOctets_octets {db : Db} (h : db.WellFormed) :
    (db.getAllOwnerOctets.map OwnerOctet.octet).Nodup := by
  have hperm : db.getAllOwnerOctets.Perm db.ownerOctets := List.perm_insertionSort _ _
  exact (hperm.map OwnerOctet.octet).nodup_iff.mpr h.octets

theorem lookup_groupInsert (key other : Owner) (ip : IPv4Address)
    (out : List (Owner × List IPv4Address)) :
    ((groupInsert key ip out).lookup other).getD [] =
      (out.lookup other).getD [] ++ if key = other then [ip] else [] := by
  induction out with
  | nil =>
    by_cases hkey : key = other
    · simp [groupInsert, hkey]
    · have hne : (other == key) = false := by simpa using Ne.symm hkey
      simp [groupInsert, List.lookup, hne, hkey]
  | cons entry rest ih =>
    obtain ⟨k, ips⟩ := entry
    by_cases hk : k = key
    · subst hk
      by_cases hother : k = other
      · simp [groupInsert, List.lookup, hother]
      · have hne : (other == k) = false := by simpa using Ne.symm hother
        simp [groupInsert, List.lookup, hne, hother]
    · by_cases hother : other = k
      · subst hother
        have hne : key ≠ other := fun heq => hk heq.symm
        simp [groupInsert, List.lookup, hk, hne]
      · have hne : (other == k) = false := by simpa using hother
        simpa [groupInsert, List.lookup, hk, hne] using ih

/-- `peers_by_owner.get(owner, [])`: the addresses of the owner's peers, in id order. -/
theorem lookup_peersGroupedByOwner (db : Db) (owner : Owner) :
    (db.peersGroupedByOwner.lookup owner).getD [] =
      (db.peers.filter fun p => p.owner = owner).map Peer.ipAddress := by
  suffices haux : ∀ (peers : List Peer) (out : List (Owner × List IPv4Address)),
      ((peers.foldl (fun out p => groupInsert p.owner p.ipAddress out) out).lookup owner).getD [] =
        (out.lookup owner).getD [] ++
          (peers.filter fun p => p.owner = owner).map Peer.ipAddress by
    unfold peersGroupedByOwner
    simpa using haux db.peers []
  intro peers
  induction peers with
  | nil => intro out; simp
  | cons peer peers ih =>
    intro out
    rw [List.foldl_cons, ih, lookup_groupInsert, List.append_assoc]
    congr 1
    by_cases howner : peer.owner = owner
    · simp [howner]
    · simp [howner]

end Db

end EdoPlugin
