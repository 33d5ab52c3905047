import EdoPlugin.NetworkOwnership

/-!
# First spawns of one owner, concurrently

`ensure_owner_network` looks the owner's octet up and then inserts one, looks the network up and then
creates it, each in a transaction or a call of its own.  Several first spawns of one owner can pass both
lookups together.  An insert that comes too late violates the primary key, which the retry loop of
`allocate_octet` takes for a taken octet; a network that comes too late is refused.  As long as neither
happens, all calls return one octet, and the owner ends with that octet and one network.
-/

namespace EdoPlugin

open Interaction

/-! ## The calls, transaction by transaction -/

/-- How one transaction of the loop of `allocate_octet` fails. -/
inductive OctetError where
  | exhausted
  | integrityError (err : IntegrityError)
deriving DecidableEq, Repr

/-- One transaction of the loop of `allocate_octet`. -/
def Db.octetAttempt (db : Db) (owner : Owner) : Except OctetError Octet × Db :=
  match db.firstFreeOctet with
  | none => (.error .exhausted, db)
  | some octet =>
    match db.insertOctet ⟨owner, octet⟩ with
    | .ok db' => (.ok octet, db')
    | .error err => (.error (.integrityError err), db)

inductive EnsureOp where
  | getOctet (owner : Owner)
  | octetAttempt (owner : Owner)
  | daemon (op : DaemonOp)
  /-- `ensure_owner_network` returns to its caller. -/
  | returned (octet : Octet)

@[reducible] def EnsureOp.Res : EnsureOp → Type
  | .getOctet _ => Option Octet
  | .octetAttempt _ => Except OctetError Octet
  | .daemon op => op.Res
  | .returned _ => Unit

@[reducible] def EnsureOp.Choice : EnsureOp → Type
  | .daemon op => op.Choice
  | _ => Unit

@[reducible] def ensureEffect : Effect := ⟨EnsureOp, EnsureOp.Res⟩

abbrev Ensure (α : Type) : Type := Prog ensureEffect PyErr α

def callEnsure (op : EnsureOp) : Ensure op.Res := @Prog.perform ensureEffect PyErr op

def EnsureOp.exec (w : World) : (op : EnsureOp) → op.Choice → Option (op.Res × World)
  | .getOctet owner, _ => some (w.db.getOctet owner, w)
  | .octetAttempt owner, _ =>
    some ((w.db.octetAttempt owner).1, { w with db := (w.db.octetAttempt owner).2 })
  | .daemon op, choice => op.exec w choice
  | .returned _, _ => some ((), w)

def ensureMachine : Machine ensureEffect World where
  Choice := EnsureOp.Choice
  exec := EnsureOp.exec

/-- A daemon policy decides about the daemon's calls; a transaction has no choice. -/
def ensurePolicy (policy : Policy) : (op : EnsureOp) → op.Choice → Prop
  | .daemon op, choice => policy op choice
  | .getOctet _, _ | .octetAttempt _, _ | .returned _, _ => True

abbrev ensureSem (policy : Policy) : Sem ensureEffect World :=
  ensureMachine.answers (ensurePolicy policy)

/-- The daemon's code among these calls. -/
def onDaemon {α : Type} : Daemon α → Ensure α
  | .ret value => .ret value
  | .raise err => .raise err
  | .call op next => @Prog.call ensureEffect PyErr α (.daemon op) fun res => onDaemon (next res)

/-- The retry loop of `allocate_octet`, with the attempts it has left. -/
def octetAttempts (owner : Owner) : Nat → Ensure Octet
  | 0 => .raise (.runtimeError "could not allocate an octet")
  | attempts + 1 => do
    let attempt ← callEnsure (.octetAttempt owner)
    match attempt with
    | .ok octet => return octet
    | .error .exhausted =>
      .raise (.runtimeError "docker subnet pool exhausted (254 owners already allocated)")
    | .error (.integrityError _) => octetAttempts owner attempts

def allocateOctetSteps (owner : Owner) : Ensure Octet := do
  let existing ← callEnsure (.getOctet owner)
  match existing with
  | some octet => return octet
  | none => octetAttempts owner 254

/-- `ensure_owner_network` once the octet is known. -/
def networkOfOctet (owner : Owner) (octet : Octet) : Daemon Octet := do
  dockerClient
  let existing ← callDocker (.networksGet (bridgeName octet))
  match existing with
  | .ok net =>
    if networkIsRouted net then
      return octet
    else
      .raise (.runtimeError (s!"docker network '{bridgeName octet}' exists but is not in routed " ++
        "mode; remove it manually (docker network rm) and retry"))
  | .error (.notFound _) => createOwnerNetwork owner octet
  | .error (.apiError msg) => .raise (.apiError msg)

def ensureOwnerNetworkSteps (owner : Owner) : Ensure Octet := do
  let octet ← allocateOctetSteps owner
  onDaemon (networkOfOctet owner octet)

/-! ## Alone, the transactions make up the call -/

theorem ensureOwnerNetwork_eq (owner : Owner) : ensureOwnerNetwork owner =
    callDb (.allocateOctet owner) >>= fun allocated =>
      Prog.ofExcept allocated >>= networkOfOctet owner := rfl

section Alone

variable {policy : Policy} {α : Type} {w w' : World} {owner : Owner}

theorem ends_onDaemon {p : Daemon α} {out : Except PyErr α} :
    Ends (ensureSem policy) (onDaemon p) w out w' ↔ Ends (daemonSem policy) p w out w' := by
  constructor
  · rintro ⟨trace, hrun⟩
    induction p generalizing w trace with
    | ret value =>
      cases hrun
      exact .ret
    | raise err =>
      cases hrun
      exact ⟨_, .raise⟩
    | call op next ih =>
      cases hrun with
      | call hsem hrest => exact Ends.call hsem (ih _ _ hrest)
  · rintro ⟨trace, hrun⟩
    induction hrun with
    | ret => exact .ret
    | raise => exact ⟨_, .raise⟩
    | call hsem _ ih =>
      apply Ends.call _ ih
      exact hsem

theorem ensureSem_getOctet {res : Option Octet} :
    ensureSem policy w (.getOctet owner) res w' ↔ res = w.db.getOctet owner ∧ w' = w := by
  constructor
  · rintro ⟨_, -, ⟨⟩⟩
    exact ⟨rfl, rfl⟩
  · rintro ⟨rfl, rfl⟩
    exact ⟨(), trivial, rfl⟩

theorem ensureSem_octetAttempt {res : Except OctetError Octet} :
    ensureSem policy w (.octetAttempt owner) res w' ↔
      res = (w.db.octetAttempt owner).1 ∧ w' = { w with db := (w.db.octetAttempt owner).2 } := by
  constructor
  · rintro ⟨_, -, ⟨⟩⟩
    exact ⟨rfl, rfl⟩
  · rintro ⟨rfl, rfl⟩
    exact ⟨(), trivial, rfl⟩

/-- An attempt for an owner without an octet collides with nothing. -/
theorem octetAttempt_of_notHeld {db : Db} (h : db.getOctet owner = none) :
    db.octetAttempt owner = match db.firstFreeOctet with
      | none => (.error .exhausted, db)
      | some octet =>
        (.ok octet, { db with ownerOctets := db.ownerOctets ++ [⟨owner, octet⟩] }) := by
  unfold Db.octetAttempt
  cases hfree : db.firstFreeOctet with
  | none => rfl
  | some octet =>
    have howner : ¬ (db.ownerOctets.any fun r => r.owner = owner) = true := by
      simpa using Db.getOctet_eq_none_iff.mp h
    have hoctet : ¬ (db.ownerOctets.any fun r => r.octet = octet) = true := by
      simpa using Db.firstFreeOctet_not_held hfree
    simp [Db.insertOctet, howner, hoctet]

theorem ends_allocateOctetSteps {f : Octet → Ensure α} {out : Except PyErr α} :
    Ends (ensureSem policy) (allocateOctetSteps owner >>= f) w out w' ↔
      Ends (ensureSem policy) (Prog.ofExcept (w.db.allocateOctet owner).1 >>= f)
        { w with db := (w.db.allocateOctet owner).2 } out w' := by
  refine (ends_call_iff fun _ _ => ensureSem_getOctet).trans ?_
  rw [Db.allocateOctet_eq]
  cases hown : w.db.getOctet owner with
  | some octet => rfl
  | none =>
    have hattempt := octetAttempt_of_notHeld hown
    refine (ends_call_iff fun _ _ => ensureSem_octetAttempt).trans ?_
    rw [hattempt]
    cases w.db.firstFreeOctet with
    | none => rfl
    | some octet => rfl

theorem daemonSem_db {op : DbOp} {res : op.Res} (hpolicy : policy (.db op) ()) :
    daemonSem policy w (.db op) res w' ↔
      res = (op.exec w.db).1 ∧ w' = { w with db := (op.exec w.db).2 } := by
  constructor
  · rintro ⟨_, -, ⟨⟩⟩
    exact ⟨rfl, rfl⟩
  · rintro ⟨rfl, rfl⟩
    exact ⟨(), hpolicy, rfl⟩

/-- **Alone**, a call ends as `ensureOwnerNetwork` does, whose allocator is a single step. -/
theorem ends_ensureOwnerNetworkSteps {out : Except PyErr Octet}
    (hpolicy : policy (.db (.allocateOctet owner)) ()) :
    Ends (ensureSem policy) (ensureOwnerNetworkSteps owner) w out w' ↔
      Ends (daemonSem policy) (ensureOwnerNetwork owner) w out w' := by
  rw [ensureOwnerNetwork_eq, ensureOwnerNetworkSteps, ends_allocateOctetSteps]
  refine Iff.trans ?_ (ends_call_iff fun _ _ => daemonSem_db hpolicy).symm
  simp only [DbOp.exec]
  cases (w.db.allocateOctet owner).1 with
  | error err => exact ends_raise_iff.trans ends_raise_iff.symm
  | ok octet => exact ends_onDaemon

end Alone

/-! ## How far a call has come -/

inductive EnsurePhase where
  | called
  /-- `get_octet` has found none. -/
  | unallocated
  | allocated (octet : Octet)
  /-- `networks.get` has found none. -/
  | missing (octet : Octet)
  /-- The network is there. -/
  | ensured (octet : Octet)
  | returned (octet : Octet)
  | failed
deriving DecidableEq, Repr

namespace EnsurePhase

/-- The octet the call has been given. -/
def octet : EnsurePhase → Option Octet
  | .called | .unallocated | .failed => none
  | .allocated octet | .missing octet | .ensured octet | .returned octet => some octet

/-- The call has seen the network or created it. -/
def hasNetwork : EnsurePhase → Bool
  | .ensured _ | .returned _ => true
  | .called | .unallocated | .allocated _ | .missing _ | .failed => false

def next : EnsurePhase → (op : EnsureOp) → op.Res → EnsurePhase
  | .called, .getOctet _, none => .unallocated
  | .called, .getOctet _, some octet => .allocated octet
  | .unallocated, .octetAttempt _, .ok octet => .allocated octet
  | .unallocated, .octetAttempt _, .error _ => .failed
  | .allocated octet, .daemon (.docker (.networksGet _)), .ok _ => .ensured octet
  | .allocated octet, .daemon (.docker (.networksGet _)), .error _ => .missing octet
  | .missing octet, .daemon (.docker (.networksCreate ..)), .ok () => .ensured octet
  | .missing _, .daemon (.docker (.networksCreate ..)), .error _ => .failed
  | .ensured octet, .returned _, () => .returned octet
  | phase, _, _ => phase

/-- The calls an `ensure_owner_network` for the owner can make at this point. -/
def admits (owner : Owner) : EnsurePhase → EnsureOp → Prop
  | .called, op => op = .getOctet owner
  | .unallocated, op => op = .octetAttempt owner
  | .allocated octet, op =>
    op = .daemon (.docker .client) ∨ op = .daemon (.docker (.networksGet (bridgeName octet)))
  | .missing octet, op => op = .daemon (.docker (.networksCreate (bridgeName octet)
      (ownerSubnet octet) (ownerGatewayIp octet)
      [("com.docker.network.bridge.name", bridgeName octet), (gatewayModeOption, "routed")]
      (ownerLabels owner)))
  | .ensured octet, op => op = .returned octet
  | .returned _, _ | .failed, _ => False

/-- The answers that let a call go on to its end. -/
def expected (_ : EnsurePhase) : (op : EnsureOp) → op.Res → Prop
  | .octetAttempt _, attempt => ∃ octet, attempt = .ok octet
  | .daemon (.docker .client), connected => connected = .ok ()
  | .daemon (.docker (.networksGet _)), .ok net => networkIsRouted net = true
  | .daemon (.docker (.networksGet _)), .error err => ∃ msg, err = .notFound msg
  | .daemon (.docker (.networksCreate ..)), created => created = .ok ()
  | _, _ => True

end EnsurePhase

/-- The caller in `spawn_instance` goes on with the octet. -/
def ensureCall (owner : Owner) : Ensure Unit := do
  let octet ← ensureOwnerNetworkSteps owner
  callEnsure (.returned octet)

/-- The program returns a value, in a phase related to it. -/
def EndsWith {α : Type} (P : α → EnsurePhase → Prop) : Except PyErr α → EnsurePhase → Prop
  | .ok value, phase => P value phase
  | .error _, _ => False

abbrev Ensures {α : Type} (owner : Owner) (p : Ensure α) (Q : Except PyErr α → EnsurePhase → Prop)
    (phase : EnsurePhase) : Prop :=
  Conforms (E := ensureEffect) EnsurePhase.expected (EnsurePhase.admits owner) EnsurePhase.next p Q
    phase

section Protocol

variable {owner : Owner} {octet : Octet}

theorem ensures_networkOfOctet :
    Ensures owner (onDaemon (networkOfOctet owner octet))
      (EndsWith fun value φ => value = octet ∧ φ = .ensured octet) (.allocated octet) := by
  refine Conforms.call (Or.inl rfl) fun connected hconnected => ?_
  cases hconnected
  refine Conforms.call (Or.inr rfl) fun existing hexisting => ?_
  cases existing with
  | ok net =>
    have hrouted : networkIsRouted net = true := hexisting
    have hreturns : onDaemon (if networkIsRouted net = true then .ret octet else
        .raise (.runtimeError (s!"docker network '{bridgeName octet}' exists but is not in routed " ++
          "mode; remove it manually (docker network rm) and retry")) : Daemon Octet) =
        .ret octet := by
      rw [if_pos hrouted]
      rfl
    exact hreturns ▸ ⟨rfl, rfl⟩
  | error err =>
    obtain ⟨msg, rfl⟩ : ∃ msg, err = .notFound msg := hexisting
    refine Conforms.call rfl fun created hcreated => ?_
    cases hcreated
    exact ⟨rfl, rfl⟩

theorem ensures_allocateOctetSteps :
    Ensures owner (allocateOctetSteps owner) (EndsWith fun octet φ => φ = .allocated octet)
      .called := by
  refine Conforms.perform rfl fun existing _ => ?_
  cases existing with
  | some octet => exact rfl
  | none =>
    refine Conforms.perform rfl fun attempt hattempt => ?_
    obtain ⟨octet, rfl⟩ := hattempt
    exact rfl

/-- **One call.**  With the expected answers it comes to its end and does not raise. -/
theorem ensures_ensureCall : Ensures owner (ensureCall owner)
    (EndsWith fun _ φ => ∃ octet, φ = .returned octet) .called := by
  have hsteps : Ensures owner (ensureOwnerNetworkSteps owner)
      (EndsWith fun octet φ => φ = .ensured octet) .called := by
    apply Conforms.andThen ensures_allocateOctetSteps
    · rintro octet _ rfl
      apply wp_mono ensures_networkOfOctet
      intro out φ hout
      cases out with
      | ok value =>
        obtain ⟨rfl, rfl⟩ := hout
        exact rfl
      | error err => exact hout
    · exact fun _ _ h => h
  apply Conforms.andThen hsteps
  · rintro octet _ rfl
    exact Conforms.call rfl fun _ _ => ⟨octet, rfl⟩
  · exact fun _ _ h => h

end Protocol

/-! ## The invariant -/

/-- Before the calls: the owner has no octet, the octet it will get has no network, and an octet is
    free. -/
structure NoOwnerNetwork (owner : Owner) (w : World) : Prop where
  noOctet : w.db.getOctet owner = none
  noNetwork : ∀ octet, w.db.firstFreeOctet = some octet →
    w.docker.findNetwork (bridgeName octet) = none
  room : w.db.ownerOctets.length < 254

/-- A call inserts an octet only while the owner has none, and creates a network only while none has
    its name. -/
def noCollision (owner : Owner) (w : World) (_ : List EnsurePhase) (event : Event ensureEffect) :
    Bool :=
  match event.op with
  | .octetAttempt _ => (w.db.getOctet owner).isNone
  | .daemon (.docker (.networksCreate name _ _ _ _)) => (w.docker.findNetwork name).isNone
  | _ => true

/-- No two calls collide. -/
def NoCollision (owner : Owner) (w : World) (phases : List EnsurePhase)
    (event : Event ensureEffect) : Prop :=
  noCollision owner w phases event = true

/-- The owner's row has been inserted. -/
def Allocated (owner : Owner) (octet : Octet) (w₀ w : World) : Prop :=
  w.db.ownerOctets = w₀.db.ownerOctets ++ [⟨owner, octet⟩]

/-- There is one network with the octet's name, and it is routed. -/
def OneNetwork (octet : Octet) (w : World) : Prop :=
  ∃ net, (w.docker.networks.filter fun net => net.name = bridgeName octet) = [net] ∧
    networkIsRouted net = true

/-- What the calls have done together, and how far each can be. -/
structure EnsureInv (owner : Owner) (octet : Octet) (w₀ w : World) (phases : List EnsurePhase) :
    Prop where
  rows : (w.db.ownerOctets = w₀.db.ownerOctets ∧ ∀ φ ∈ phases, φ.octet = none) ∨
    Allocated owner octet w₀ w
  networks : (w.docker.findNetwork (bridgeName octet) = none ∧
    ∀ φ ∈ phases, φ.hasNetwork = false) ∨ OneNetwork octet w
  octets : ∀ φ ∈ phases, ∀ o, φ.octet = some o → o = octet

section Steps

variable {owner : Owner} {octet : Octet} {w₀ w w' : World} {phases : List EnsurePhase} {tid : Nat}

theorem length_allOctets : allOctets.length = 254 := by
  simp [allOctets]

theorem nodup_allOctets : allOctets.Nodup := by
  apply (List.nodup_finRange 254).map
  intro i j hij
  simpa [Fin.ext_iff] using hij

theorem Db.exists_firstFreeOctet {db : Db} (h : db.ownerOctets.length < 254) :
    ∃ octet, db.firstFreeOctet = some octet := by
  by_contra hnone
  have hnone' : db.firstFreeOctet = none :=
    Option.eq_none_iff_forall_ne_some.mpr fun octet hsome => hnone ⟨octet, hsome⟩
  have htaken : allOctets ⊆ db.ownerOctets.map OwnerOctet.octet := by
    intro octet hoctet
    have hused := List.find?_eq_none.mp hnone' octet hoctet
    simpa using hused
  have hlength := (List.subperm_of_subset nodup_allOctets htaken).length_le
  simp only [length_allOctets, List.length_map] at hlength
  omega

theorem getOctet_of_sameRows (h : w.db.ownerOctets = w₀.db.ownerOctets) :
    w.db.getOctet owner = w₀.db.getOctet owner := by
  unfold Db.getOctet
  rw [h]

theorem firstFreeOctet_of_sameRows (h : w.db.ownerOctets = w₀.db.ownerOctets) :
    w.db.firstFreeOctet = w₀.db.firstFreeOctet := by
  unfold Db.firstFreeOctet
  rw [h]

theorem Allocated.getOctet (h : Allocated owner octet w₀ w) (hnone : w₀.db.getOctet owner = none) :
    w.db.getOctet owner = some octet := by
  unfold Allocated at h
  unfold Db.getOctet at hnone ⊢
  rw [Option.map_eq_none_iff] at hnone
  rw [h, List.find?_append, hnone]
  simp

theorem OneNetwork.findNetwork (h : OneNetwork octet w) :
    ∃ net, w.docker.findNetwork (bridgeName octet) = some net ∧ networkIsRouted net = true := by
  obtain ⟨net, hfilter, hrouted⟩ := h
  refine ⟨net, ?_, hrouted⟩
  unfold Docker.findNetwork
  rw [← List.head?_filter, hfilter]
  rfl

/-- A network that is created while none has its name. -/
theorem OneNetwork.of_create {net : Network}
    (hnone : w.docker.findNetwork (bridgeName octet) = none) (hname : net.name = bridgeName octet)
    (hrouted : networkIsRouted net = true) (h : w'.docker.networks = w.docker.networks ++ [net]) :
    OneNetwork octet w' := by
  refine ⟨net, ?_, hrouted⟩
  have hfilter : (w.docker.networks.filter fun net => net.name = bridgeName octet) = [] := by
    unfold Docker.findNetwork at hnone
    rw [List.find?_eq_none] at hnone
    exact List.filter_eq_nil_iff.mpr hnone
  rw [h, List.filter_append, hfilter]
  simp [hname]

/-- A step keeps the invariant if it keeps it for the phases that stay and for the new one. -/
theorem EnsureInv.set {φ' : EnsurePhase} (h : EnsureInv owner octet w₀ w phases)
    (hrows : w.db.ownerOctets = w₀.db.ownerOctets → (∀ φ ∈ phases, φ.octet = none) →
      (w'.db.ownerOctets = w₀.db.ownerOctets ∧ φ'.octet = none) ∨ Allocated owner octet w₀ w')
    (hrows' : Allocated owner octet w₀ w → Allocated owner octet w₀ w')
    (hnetworks : w.docker.findNetwork (bridgeName octet) = none →
      (w'.docker.findNetwork (bridgeName octet) = none ∧ φ'.hasNetwork = false) ∨
        OneNetwork octet w')
    (hnetworks' : OneNetwork octet w → OneNetwork octet w')
    (hoctet : ∀ o, φ'.octet = some o → o = octet) :
    EnsureInv owner octet w₀ w' (phases.set tid φ') := by
  constructor
  · rcases h.rows with ⟨hsame, hphases⟩ | hallocated
    · rcases hrows hsame hphases with ⟨hsame', hφ'⟩ | hallocated
      · refine Or.inl ⟨hsame', ?_⟩
        intro φ hφ
        rcases List.mem_or_eq_of_mem_set hφ with hold | rfl
        · exact hphases φ hold
        · exact hφ'
      · exact Or.inr hallocated
    · exact Or.inr (hrows' hallocated)
  · rcases h.networks with ⟨hnone, hphases⟩ | hnetwork
    · rcases hnetworks hnone with ⟨hnone', hφ'⟩ | hnetwork
      · refine Or.inl ⟨hnone', ?_⟩
        intro φ hφ
        rcases List.mem_or_eq_of_mem_set hφ with hold | rfl
        · exact hphases φ hold
        · exact hφ'
      · exact Or.inr hnetwork
    · exact Or.inr (hnetworks' hnetwork)
  · intro φ hφ
    rcases List.mem_or_eq_of_mem_set hφ with hold | rfl
    · exact h.octets φ hold
    · exact hoctet

/-- A step that changes neither table nor network. -/
theorem EnsureInv.same {φ φ' : EnsurePhase} (h : EnsureInv owner octet w₀ w phases)
    (hphase : phases[tid]? = some φ) (hoctet : φ'.octet = φ.octet)
    (hnetwork : φ'.hasNetwork = φ.hasNetwork) : EnsureInv owner octet w₀ w (phases.set tid φ') := by
  have hmem := List.mem_of_getElem? hphase
  apply h.set
  · exact fun hsame hnone => Or.inl ⟨hsame, hoctet.trans (hnone φ hmem)⟩
  · exact id
  · intro hnone
    rcases h.networks with ⟨-, hphases⟩ | hnet
    · exact Or.inl ⟨hnone, hnetwork.trans (hphases φ hmem)⟩
    · exact Or.inr hnet
  · exact id
  · exact fun o ho => h.octets φ hmem o (hoctet ▸ ho)

/-- **One call of a thread**, from which the answers come as expected. -/
theorem EnsureInv.step {phase : EnsurePhase} {op : EnsureOp} {res : op.Res}
    (hstart : NoOwnerNetwork owner w₀) (hfree : w₀.db.firstFreeOctet = some octet)
    (h : EnsureInv owner octet w₀ w phases) (hphase : phases[tid]? = some phase)
    (hadmits : phase.admits owner op) (hsem : ensureSem noFault w op res w')
    (hok : NoCollision owner w phases ⟨tid, op, res⟩) :
    phase.expected op res ∧ EnsureInv owner octet w₀ w' (phases.set tid (phase.next op res)) := by
  have hmem := List.mem_of_getElem? hphase
  cases phase with
  | called =>
    obtain rfl : op = .getOctet owner := hadmits
    obtain ⟨rfl, rfl⟩ := ensureSem_getOctet.mp hsem
    refine ⟨trivial, ?_⟩
    rcases h.rows with ⟨hsame, -⟩ | hallocated
    · have hnone : w'.db.getOctet owner = none :=
        (getOctet_of_sameRows hsame).trans hstart.noOctet
      rw [hnone]
      exact h.same hphase rfl rfl
    · rw [hallocated.getOctet hstart.noOctet]
      apply h.set
      · exact fun _ _ => Or.inr hallocated
      · exact id
      · exact fun hnone => Or.inl ⟨hnone, rfl⟩
      · exact id
      · exact fun o ho => (Option.some.inj ho).symm
  | unallocated =>
    obtain rfl : op = .octetAttempt owner := hadmits
    obtain ⟨rfl, rfl⟩ := ensureSem_octetAttempt.mp hsem
    have hnone : w.db.getOctet owner = none := Option.isNone_iff_eq_none.mp hok
    have hsame : w.db.ownerOctets = w₀.db.ownerOctets := by
      rcases h.rows with ⟨hsame, -⟩ | hallocated
      · exact hsame
      · rw [hallocated.getOctet hstart.noOctet] at hnone
        cases hnone
    rw [octetAttempt_of_notHeld hnone, firstFreeOctet_of_sameRows hsame, hfree]
    refine ⟨⟨octet, rfl⟩, ?_⟩
    have hallocated : Allocated owner octet w₀
        { w with db := { w.db with ownerOctets := w.db.ownerOctets ++ [⟨owner, octet⟩] } } := by
      unfold Allocated
      rw [hsame]
    apply h.set
    · exact fun _ _ => Or.inr hallocated
    · exact fun _ => hallocated
    · exact fun hnone => Or.inl ⟨hnone, rfl⟩
    · exact id
    · exact fun o ho => (Option.some.inj ho).symm
  | allocated held =>
    obtain rfl : held = octet := h.octets _ hmem held rfl
    rcases hadmits with rfl | rfl
    · obtain ⟨choice, rfl, ⟨⟩⟩ := hsem
      exact ⟨rfl, h.same hphase rfl rfl⟩
    · obtain ⟨choice, rfl, ⟨⟩⟩ := hsem
      simp only [DockerOp.exec, failing, Docker.networksGet]
      rcases h.networks with ⟨hnone, -⟩ | hnetwork
      · rw [hnone]
        exact ⟨⟨_, rfl⟩, h.same hphase rfl rfl⟩
      · obtain ⟨net, hfind, hrouted⟩ := hnetwork.findNetwork
        rw [hfind]
        refine ⟨hrouted, ?_⟩
        apply h.set
        · intro _ hphases
          cases hphases _ hmem
        · exact id
        · intro hnone
          rw [hfind] at hnone
          cases hnone
        · exact id
        · exact fun o ho => (Option.some.inj ho).symm
  | missing held =>
    obtain rfl : held = octet := h.octets _ hmem held rfl
    obtain rfl := hadmits
    obtain ⟨choice, rfl, ⟨⟩⟩ := hsem
    have hnone : w.docker.findNetwork (bridgeName held) = none := Option.isNone_iff_eq_none.mp hok
    simp only [DockerOp.exec, failing, Docker.networksCreate, hnone]
    refine ⟨rfl, ?_⟩
    have hnetwork : OneNetwork held { w with docker := { w.docker with
        networks := w.docker.networks ++ [⟨w.docker.nextId, bridgeName held, ownerSubnet held,
          ownerGatewayIp held, [("com.docker.network.bridge.name", bridgeName held),
            (gatewayModeOption, "routed")], ownerLabels owner⟩]
        nextId := w.docker.nextId + 1 } } :=
      .of_create hnone rfl rfl rfl
    apply h.set
    · intro _ hphases
      cases hphases _ hmem
    · exact id
    · exact fun _ => Or.inr hnetwork
    · exact fun _ => hnetwork
    · exact fun o ho => (Option.some.inj ho).symm
  | ensured held =>
    obtain rfl := hadmits
    obtain ⟨choice, -, ⟨⟩⟩ := hsem
    exact ⟨trivial, h.same hphase rfl rfl⟩
  | returned held | failed => exact hadmits.elim

end Steps

/-! ## Every run of the calls -/

abbrev EnsureConfig : Type := Config ensureEffect PyErr EnsurePhase World

/-- The calls for one owner, none of which has begun. -/
def ensureCalls (owner : Owner) (calls : Nat) (w : World) : EnsureConfig :=
  ⟨w, List.replicate calls ⟨.called, ensureCall owner⟩⟩

/-- No call has raised; and once all have returned, they have returned one octet, which is the only
    one the owner holds and has one network. -/
structure EnsuredOnce (owner : Owner) (c : EnsureConfig) : Prop where
  noneRaises : ∀ thread ∈ c.threads, ∀ err, thread.prog ≠ .raise err
  agree : c.Finished → ∃ octet, (∀ phase ∈ c.phases, phase = .returned octet) ∧
    (c.world.db.ownerOctets.filter fun row => row.owner = owner) = [⟨owner, octet⟩] ∧
    OneNetwork octet c.world

section Runs

variable {owner : Owner} {calls : Nat} {w₀ : World} {c : EnsureConfig}

theorem EnsureInv.start {octet : Octet} (hstart : NoOwnerNetwork owner w₀)
    (hfree : w₀.db.firstFreeOctet = some octet) :
    EnsureInv owner octet w₀ w₀ (ensureCalls owner calls w₀).phases := by
  have hphases : ∀ φ ∈ (ensureCalls owner calls w₀).phases, φ = .called := by
    intro φ hφ
    simp only [Config.phases, ensureCalls, List.map_replicate] at hφ
    exact List.eq_of_mem_replicate hφ
  constructor
  · exact Or.inl ⟨rfl, fun φ hφ => by rw [hphases φ hφ]; rfl⟩
  · exact Or.inl ⟨hstart.noNetwork octet hfree, fun φ hφ => by rw [hphases φ hφ]; rfl⟩
  · intro φ hφ o ho
    rw [hphases φ hφ] at ho
    cases ho

theorem threads_length (hreach : Reach (ensureSem noFault) EnsurePhase.next (NoCollision owner)
    (ensureCalls owner calls w₀) c) : c.threads.length = calls := by
  induction hreach with
  | start => simp [ensureCalls]
  | step _ hstep _ ih =>
    cases hstep with
    | mk hget hsem =>
      rw [List.length_set]
      exact ih

/-- **Concurrent first spawns** get one octet and one network, in every run without a collision. -/
theorem ensuredOnce_of_noCollision (hstart : NoOwnerNetwork owner w₀) (hcalls : 0 < calls)
    (hreach : Reach (ensureSem noFault) EnsurePhase.next (NoCollision owner)
      (ensureCalls owner calls w₀) c) :
    EnsuredOnce owner c := by
  obtain ⟨octet, hfree⟩ := Db.exists_firstFreeOctet hstart.room
  have hcalls₀ : ∀ thread ∈ (ensureCalls owner calls w₀).threads, Ensures owner thread.prog
      (EndsWith fun _ φ => ∃ octet, φ = .returned octet) thread.phase := by
    intro thread hthread
    rw [List.eq_of_mem_replicate hthread]
    exact ensures_ensureCall
  have hkeeps : ∀ w phases tid phase (op : EnsureOp) (res : op.Res) w',
      EnsureInv owner octet w₀ w phases → phases[tid]? = some phase → phase.admits owner op →
      ensureSem noFault w op res w' → NoCollision owner w phases ⟨tid, op, res⟩ →
      phase.expected op res ∧ EnsureInv owner octet w₀ w' (phases.set tid (phase.next op res)) :=
    fun _ _ _ _ _ _ _ => EnsureInv.step hstart hfree
  obtain ⟨hinv, hconf⟩ := reach_invariant hkeeps hcalls₀ (EnsureInv.start hstart hfree) hreach
  constructor
  · rintro ⟨phase, prog⟩ hthread err rfl
    exact hconf _ hthread
  · intro hfinished
    have hreturned : ∀ phase ∈ c.phases, phase = .returned octet := by
      intro phase hphase
      obtain ⟨thread, hthread, rfl⟩ := List.mem_map.mp hphase
      have hend := hconf thread hthread
      rw [hfinished thread hthread] at hend
      obtain ⟨held, hheld⟩ : ∃ octet, thread.phase = .returned octet := hend
      have hsame := hinv.octets _ hphase held (by rw [hheld]; rfl)
      rw [hheld, hsame]
    obtain ⟨phase, hphase⟩ : ∃ phase, phase ∈ c.phases := by
      have hlength := threads_length hreach
      exact List.exists_mem_of_length_pos (by simp [Config.phases]; omega)
    have hend := hreturned phase hphase
    subst hend
    refine ⟨octet, hreturned, ?_, ?_⟩
    · rcases hinv.rows with ⟨-, hnone⟩ | hallocated
      · cases hnone _ hphase
      · have hfilter : (w₀.db.ownerOctets.filter fun row => row.owner = owner) = [] := by
          simpa using Db.getOctet_eq_none_iff.mp hstart.noOctet
        rw [hallocated, List.filter_append, hfilter]
        simp
    · rcases hinv.networks with ⟨-, hnone⟩ | hnetwork
      · cases hnone _ hphase
      · exact hnetwork

end Runs

/-! ## Two schedules -/

/-- The daemon's calls of an uneventful run, among these. -/
def quietEnsure : Machine ensureEffect World where
  Choice := fun _ => Unit
  exec := fun w op _ => match op with
    | .daemon op => EnsureOp.exec w (.daemon op) (quietChoice op)
    | .getOctet owner => EnsureOp.exec w (.getOctet owner) ()
    | .octetAttempt owner => EnsureOp.exec w (.octetAttempt owner) ()
    | .returned octet => EnsureOp.exec w (.returned octet) ()

def firstTeam : Owner := ⟨"team", 1⟩

/-- Two first spawns of one team on a fresh host; in each block, one of them makes so many calls. -/
def twoEnsures (check : World → List EnsurePhase → Event ensureEffect → Bool)
    (blocks : List (Nat × Nat)) : Option EnsureConfig :=
  quietEnsure.runChecked EnsurePhase.next check
    (blocks.flatMap fun block => List.replicate block.2 (block.1, fun _ => ()))
    (ensureCalls firstTeam 2 freshHost)

theorem reach_twoEnsures {check : World → List EnsurePhase → Event ensureEffect → Bool}
    {blocks : List (Nat × Nat)} {c : EnsureConfig} (h : twoEnsures check blocks = some c) :
    Reach (ensureSem noFault) EnsurePhase.next (fun w phases event => check w phases event = true)
      (ensureCalls firstTeam 2 freshHost) c := by
  refine Machine.reach_of_runChecked ?_ h
  intro w op _ res w' hexec
  cases op with
  | daemon op => exact ⟨quietChoice op, noFault_quietChoice op, hexec⟩
  | getOctet _ | octetAttempt _ | returned _ => exact ⟨(), trivial, hexec⟩

theorem freshHost_noOwnerNetwork : NoOwnerNetwork firstTeam freshHost :=
  ⟨rfl, fun _ _ => rfl, by decide⟩

/-- The second call looks the octet up after the first has inserted it, and the network after the
    first has created it. -/
def inTurn : List (Nat × Nat) := [(0, 2), (1, 2), (0, 3), (1, 1), (0, 1), (1, 1)]

theorem inTurn_finished :
    (twoEnsures (noCollision firstTeam) inTurn).any Config.isFinished = true := by
  decide +kernel

theorem ensuredOnce_of_noCollision_inTurn : ∃ c, Reach (ensureSem noFault) EnsurePhase.next
      (NoCollision firstTeam) (ensureCalls firstTeam 2 freshHost) c ∧
    c.Finished ∧ EnsuredOnce firstTeam c := by
  obtain ⟨c, hrun, hfinished⟩ := (Option.any_eq_true _ _).mp inTurn_finished
  have hreach := reach_twoEnsures hrun
  exact ⟨c, hreach, Config.finished_of_isFinished hfinished,
    ensuredOnce_of_noCollision freshHost_noOwnerNetwork (by decide) hreach⟩

/-- Some call has raised. -/
def someRaised (c : EnsureConfig) : Bool :=
  c.threads.any fun thread => match thread.prog with
    | .raise _ => true
    | _ => false

theorem not_ensuredOnce_of_someRaised {owner : Owner} {c : EnsureConfig}
    (h : someRaised c = true) : ¬ EnsuredOnce owner c := by
  obtain ⟨thread, hthread, hraised⟩ := List.any_eq_true.mp h
  intro honce
  split at hraised
  · exact honce.noneRaises thread hthread _ ‹_›
  · cases hraised

/-- Both look up before either inserts; the second spends its attempts on the primary key. -/
def bothLookUp : List (Nat × Nat) := [(0, 1), (1, 1), (0, 1), (1, 254)]

theorem bothLookUp_raises :
    (twoEnsures (fun _ _ _ => true) bothLookUp).any someRaised = true := by
  decide +kernel

/-- In some run of two calls one of them raises. -/
theorem not_ensuredOnce : ¬ ∀ (owner : Owner) (calls : Nat) (w₀ : World) (c : EnsureConfig),
    NoOwnerNetwork owner w₀ → 0 < calls →
    Reach (ensureSem noFault) EnsurePhase.next (fun _ _ _ => True) (ensureCalls owner calls w₀) c →
    EnsuredOnce owner c := by
  intro hall
  obtain ⟨c, hrun, hraised⟩ := (Option.any_eq_true _ _).mp bothLookUp_raises
  apply not_ensuredOnce_of_someRaised hraised
  apply hall firstTeam 2 freshHost c freshHost_noOwnerNetwork (by decide)
  exact (reach_twoEnsures hrun).mono fun _ _ _ _ => trivial

end EdoPlugin
