import EdoPlugin.FirewallRebuild
import EdoPlugin.Interleaving
import EdoPlugin.ServerFile

/-!
# Peers that come and go at the same time

Each connection has its own thread, and nothing serialises the changes of `wg0.conf`: a creation
inserts its row and appends its block in two steps, a removal reads the table, writes the whole file
from what it has read, and deletes its row afterwards.  As long as what a removal writes is still what
the table says, not counting the rows whose blocks are yet to be appended or whose removal has got as
far, the blocks that remain in the end are those of the rows.
-/

namespace EdoPlugin

open Interaction

/-! ## The handlers -/

/-- A change of one user's peer. -/
inductive PeerRequest where
  | ensure (userId : Int) (owner : Owner)
  | remove (userId : Int)
deriving DecidableEq, Repr

namespace PeerRequest

def userId : PeerRequest → Int
  | .ensure userId _ => userId
  | .remove userId => userId

def request : PeerRequest → Request
  | .ensure userId owner => .wgEnsurePeer userId owner
  | .remove userId => .wgRemovePeer userId

/-- One connection: the reply, or the error, is sent back. -/
def prog (env : DaemonEnv) (change : PeerRequest) : Daemon Unit :=
  (do
    let _ ← handle env change.request
    return ()).catching fun _ => .ret ()

end PeerRequest

/-! ## How far a handler has come -/

inductive FileStage where
  /-- Its row and its block agree. -/
  | idle
  /-- The row is there, and its block is yet to be appended. -/
  | inserted (peer : Peer)
  /-- It has read the file. -/
  | fetched (text : String)
  /-- It has read the file and the table. -/
  | listed (text : String) (peers : List Peer)
  /-- The file is written, and the row is yet to be deleted. -/
  | written
deriving DecidableEq, Repr

def FileStage.next : FileStage → (op : DaemonOp) → op.Res → FileStage
  | _, .db (.allocatePeer ..), .ok peer => .inserted peer
  | .inserted _, .wg (.appendServerConfig _), _ => .idle
  | .idle, .wg .readServerConfig, .ok text => .fetched text
  | .fetched text, .db .getAllPeers, peers => .listed text peers
  | .listed .., .wg (.writeServerConfig _), _ => .written
  | .written, .db (.removePeer _), _ => .idle
  | stage, _, _ => stage

structure PeerPhase where
  username : String
  stage : FileStage
deriving DecidableEq, Repr

/-- The calls that concern neither the `peers` table nor `wg0.conf`, but for looking one peer up. -/
def sparesPeers : DaemonOp → Prop
  | .db (.getPeer _) | .db .peersGroupedByOwner | .db .getAllOwnerOctets => True
  | .filter _ => True
  | .wg .readServerConfig | .wg (.appendServerConfig _) | .wg (.writeServerConfig _) => False
  | .wg _ => True
  | _ => False

namespace PeerPhase

def next (φ : PeerPhase) (op : DaemonOp) (res : op.Res) : PeerPhase :=
  { φ with stage := φ.stage.next op res }

/-- The calls a handler can make at this point. -/
def admits (φ : PeerPhase) : DaemonOp → Prop
  | .db (.allocatePeer _ username _ _ _) => φ.stage = .idle ∧ username = φ.username
  | .wg (.appendServerConfig block) => ∃ peer, φ.stage = .inserted peer ∧ block = peerBlock peer
  | .wg .readServerConfig => φ.stage = .idle
  | .db .getAllPeers => ∃ text, φ.stage = .fetched text
  | .wg (.writeServerConfig text) => ∃ old peers, φ.stage = .listed old peers ∧
      text = String.join (serverConfigHeader old ::
        (peers.filter fun p => p.username ≠ φ.username).map peerBlock)
  | .db (.removePeer username) => φ.stage = .written ∧ username = φ.username
  | op => sparesPeers op

/-- No call of `wg`, and no file operation, fails. -/
def expected (_ : PeerPhase) : (op : DaemonOp) → op.Res → Prop
  | .wg .genkey, res | .wg (.pubkey _), res => ∃ key, res = .ok key
  | .wg .parseInterfaceSection, res => ∃ keys, res = .ok keys
  | .wg .readServerConfig, res => ∃ text, res = .ok text
  | .wg (.setPeer ..), res | .wg (.removeLivePeer _), res => res = .ok ()
  | .wg (.appendServerConfig _), res | .wg (.writeServerConfig _), res | .wg .mkClientsDir, res
  | .wg (.writeClientFile ..), res | .wg (.chmodClientFile _), res
  | .wg (.unlinkClientFile _), res => res = .ok ()
  | .db (.allocatePeer _ username _ _ _), res => ∀ peer, res = .ok peer → peer.username = username
  | _, _ => True

/-- The row of the handler whose block is yet to be appended. -/
def pending (φ : PeerPhase) : Option Peer :=
  match φ.stage with
  | .inserted peer => some peer
  | _ => none

/-- The user of the handler, if its row is yet to be deleted. -/
def leaving (φ : PeerPhase) : Option String :=
  match φ.stage with
  | .written => some φ.username
  | _ => none

end PeerPhase

def pendingPeers (phases : List PeerPhase) : List Peer := phases.filterMap PeerPhase.pending

def leavingUsers (phases : List PeerPhase) : List String := phases.filterMap PeerPhase.leaving

/-- What a removal has read of the table is what it would read now, but for the rows whose blocks are
    yet to be appended and those that are yet to be deleted; its own user does not count. -/
def PeerPhase.Fresh (w : World) (phases : List PeerPhase) (φ : PeerPhase) : Prop :=
  match φ.stage with
  | .listed _ peers => ∀ p ∈ peers ++ w.db.peers, p.username ≠ φ.username →
      (p ∈ peers ↔ p ∈ w.db.peers ∧ p ∉ pendingPeers phases ∧ p.username ∉ leavingUsers phases)
  | _ => True

instance (w : World) (phases : List PeerPhase) (φ : PeerPhase) : Decidable (φ.Fresh w phases) := by
  unfold PeerPhase.Fresh
  split <;> infer_instance

/-- A removal writes the file only from what is fresh. -/
def WritesFresh (w : World) (phases : List PeerPhase) (event : Event daemonEffect) : Prop :=
  match event.op with
  | .wg (.writeServerConfig _) => ∀ φ ∈ phases[event.tid]?, φ.Fresh w phases
  | _ => True

/-! ## Every handler follows the stages -/

section Following

variable {α : Type} {φ : PeerPhase} {username : String}

abbrev ChangesPeer (p : Daemon α) (Q : Except PyErr α → PeerPhase → Prop) (φ : PeerPhase) : Prop :=
  Conforms (E := daemonEffect) PeerPhase.expected PeerPhase.admits PeerPhase.next p Q φ

theorem PeerPhase.next_of_sparesPeers {op : DaemonOp} (res : op.Res) (h : sparesPeers op) :
    φ.next op res = φ := by
  obtain ⟨username, stage⟩ := φ
  cases op with
  | db op => cases op <;> first | exact h.elim | cases stage <;> rfl
  | wg op => cases op <;> first | exact h.elim | cases stage <;> rfl
  | filter op => cases stage <;> rfl
  | docker op | host op => exact h.elim

theorem PeerPhase.admits_of_sparesPeers {op : DaemonOp} (h : sparesPeers op) : φ.admits op := by
  cases op with
  | db op => cases op <;> first | exact h | exact h.elim
  | wg op => cases op <;> first | exact h | exact h.elim
  | filter op => trivial
  | docker op | host op => exact h.elim

/-- A piece of code that spares the peers ends where it began, whatever its outcome. -/
theorem changesPeer_sparesPeers {p : Daemon α} (hp : CallsOnly sparesPeers p) :
    ChangesPeer p (fun _ φ' => φ' = φ) φ := by
  induction hp with
  | ret => exact rfl
  | raise => exact rfl
  | call hop _ ih =>
    refine Conforms.call (PeerPhase.admits_of_sparesPeers hop) fun res _ => ?_
    rw [PeerPhase.next_of_sparesPeers res hop]
    exact ih res

theorem sparesPeers_of_filterCall (op : DaemonOp) (h : filterCall op) : sparesPeers op := by
  cases op with
  | filter op => trivial
  | _ => exact h.elim

theorem sparesPeers_rebuildFirewall {env : DaemonEnv} :
    CallsOnly sparesPeers (rebuildFirewall env) := by
  refine CallsOnly.bind (CallsOnly.perform trivial) fun peersByOwner => ?_
  refine CallsOnly.bind (CallsOnly.perform trivial) fun rows => ?_
  exact CallsOnly.bind (callsOnly_applyFirewall.mono sparesPeers_of_filterCall) fun _ => .ret

theorem callsOnly_loadServer {endpoint : String} {port : Nat} :
    CallsOnly sparesPeers (loadServerConfig endpoint port) := by
  refine CallsOnly.bind (CallsOnly.perform trivial) fun parsed => ?_
  refine CallsOnly.bind CallsOnly.ofExcept fun iface => CallsOnly.ite .raise ?_
  refine CallsOnly.bind ?_ fun _ => .ret
  exact CallsOnly.bind (CallsOnly.perform trivial) fun _ => callsOnly_wgOutput

theorem callsOnly_newKeys : CallsOnly sparesPeers (peerKeys none) := by
  refine CallsOnly.bind ?_ fun pair => .ret
  refine CallsOnly.bind (CallsOnly.perform trivial) fun priv => ?_
  refine CallsOnly.bind callsOnly_wgOutput fun privateKey => ?_
  refine CallsOnly.bind (CallsOnly.perform trivial) fun pub => ?_
  exact CallsOnly.bind callsOnly_wgOutput fun publicKey => .ret

/-- A creation appends its block, and nothing fails after that. -/
theorem changesPeer_publishPeer {peer : Peer} {server : ServerConfig} :
    ChangesPeer (publishPeer peer server)
      (fun out φ => (∃ text, out = .ok text) ∧ φ = ⟨username, .idle⟩)
      ⟨username, .inserted peer⟩ := by
  refine Conforms.andThen (R := fun out φ => out = .ok () ∧ φ = ⟨username, .idle⟩) ?_ ?_ ?_
  · refine Conforms.perform ⟨peer, rfl, rfl⟩ fun res hres => ?_
    cases hres
    exact ⟨rfl, rfl⟩
  · rintro _ φ ⟨-, rfl⟩
    refine Conforms.andThen (R := fun out φ => out = .ok () ∧ φ = ⟨username, .idle⟩) ?_ ?_ ?_
    · refine Conforms.perform trivial fun res hres => ?_
      cases hres
      exact ⟨rfl, rfl⟩
    · rintro _ φ ⟨-, rfl⟩
      refine Conforms.perform trivial fun res hres => ?_
      cases hres
      refine Conforms.perform trivial fun res hres => ?_
      cases hres
      refine Conforms.perform trivial fun res hres => ?_
      cases hres
      exact ⟨⟨_, rfl⟩, rfl⟩
    · rintro err φ ⟨h, -⟩
      cases h
  · rintro err φ ⟨h, -⟩
    cases h

theorem changesPeer_addPeer {owner : Owner} {server : ServerConfig} :
    ChangesPeer (addPeer owner username server none) (fun _ φ => φ = ⟨username, .idle⟩)
      ⟨username, .idle⟩ := by
  refine Conforms.andThen (changesPeer_sparesPeers callsOnly_newKeys) ?_ fun _ _ h => h
  rintro keys φ rfl
  refine Conforms.perform ⟨rfl, rfl⟩ fun res hres => ?_
  cases res with
  | error err => exact rfl
  | ok peer =>
    obtain rfl : peer.username = username := hres peer rfl
    simp only [Prog.ofExcept, Prog.bind_eq, Prog.bind_ret]
    have hpublish : ChangesPeer ((publishPeer peer server).catching (rollBackPeer peer.username))
        (fun _ φ => φ = ⟨peer.username, .idle⟩) ⟨peer.username, .inserted peer⟩ := by
      refine wp_catching.mpr (wp_mono changesPeer_publishPeer ?_)
      rintro out φ ⟨⟨text, rfl⟩, hφ⟩
      exact hφ
    refine Conforms.andThen hpublish ?_ fun _ _ h => h
    rintro clientText φ rfl
    exact rfl

theorem changesPeer_removePeer :
    ChangesPeer (removePeer username) (fun _ φ => φ = ⟨username, .idle⟩) ⟨username, .idle⟩ := by
  refine Conforms.perform trivial fun found _ => ?_
  cases found with
  | none => exact rfl
  | some peer =>
    refine Conforms.perform trivial fun removed hremoved => ?_
    cases hremoved
    have hrewrite : ChangesPeer (rewriteServerConfig username)
        (fun out φ => out = .ok () ∧ φ = ⟨username, .written⟩) ⟨username, .idle⟩ := by
      refine Conforms.perform rfl fun res hres => ?_
      obtain ⟨text, rfl⟩ := hres
      refine Conforms.perform ⟨text, rfl⟩ fun peers _ => ?_
      refine Conforms.perform ⟨text, peers, rfl, rfl⟩ fun res hres => ?_
      cases hres
      exact ⟨rfl, rfl⟩
    show ChangesPeer (rewriteServerConfig username >>= fun _ => do
      let _ ← callDb (.removePeer username)
      let unlinked ← callWg (.unlinkClientFile username)
      (Prog.ofExcept unlinked : Daemon Unit)
      return true) _ ⟨username, .idle⟩
    refine Conforms.andThen hrewrite ?_ ?_
    · rintro _ φ ⟨-, rfl⟩
      refine Conforms.perform ⟨rfl, rfl⟩ fun _ _ => ?_
      refine Conforms.perform trivial fun res hres => ?_
      cases hres
      exact rfl
    · rintro err φ ⟨h, -⟩
      cases h

/-- **Every handler follows the stages**, and its row and its block agree in the end. -/
theorem changesPeer_prog {env : DaemonEnv} {change : PeerRequest} :
    ChangesPeer (change.prog env) (fun _ φ => φ.stage = .idle)
      ⟨usernameOf change.userId, .idle⟩ := by
  have hhandle : ChangesPeer (handle env change.request)
      (fun _ φ => φ = ⟨usernameOf change.userId, .idle⟩) ⟨usernameOf change.userId, .idle⟩ := by
    cases change with
    | ensure userId owner =>
      refine Conforms.perform trivial fun existing _ => ?_
      cases existing with
      | some peer =>
        refine Conforms.andThen (changesPeer_sparesPeers callsOnly_loadServer) ?_ fun _ _ h => h
        rintro server φ rfl
        exact rfl
      | none =>
        refine Conforms.andThen (changesPeer_sparesPeers callsOnly_loadServer) ?_ fun _ _ h => h
        rintro server φ rfl
        refine Conforms.andThen changesPeer_addPeer ?_ fun _ _ h => h
        rintro clientCfg φ rfl
        refine Conforms.andThen (changesPeer_sparesPeers sparesPeers_rebuildFirewall) ?_
          fun _ _ h => h
        rintro _ φ rfl
        exact rfl
    | remove userId =>
      refine Conforms.andThen changesPeer_removePeer ?_ fun _ _ h => h
      rintro removed φ rfl
      refine Conforms.ite ?_ rfl
      refine Conforms.andThen (changesPeer_sparesPeers sparesPeers_rebuildFirewall) ?_ fun _ _ h => h
      rintro _ φ rfl
      exact rfl
  refine wp_catching.mpr (Conforms.andThen hhandle ?_ ?_)
  · rintro _ φ rfl
    exact rfl
  · rintro err φ rfl
    exact rfl

end Following

/-! ## What the rows and the blocks have in common -/

/-- The file holds the blocks of these peers. -/
def Blocks (port : Nat) (privateKey : String) (w : World) (peers : List Peer) : Prop :=
  w.wg.serverConfig = serverText port privateKey peers

/-- The blocks of the file are those of the rows, each once. -/
def BlocksOfRows (port : Nat) (privateKey : String) (w : World) : Prop :=
  ∃ peers, Blocks port privateKey w peers ∧ peers.Perm w.db.peers

/-- The invariant: the blocks, together with those yet to be appended, are those of the rows that are
    not yet to be deleted. -/
structure BlocksAccounted (port : Nat) (privateKey : String) (w : World) (phases : List PeerPhase) :
    Prop where
  usernames : (w.db.peers.map Peer.username).Nodup
  users : (phases.map PeerPhase.username).Nodup
  blocks : ∃ peers, Blocks port privateKey w peers ∧ (peers ++ pendingPeers phases).Perm
    (w.db.peers.filter fun p => p.username ∉ leavingUsers phases)
  own : ∀ (i : Nat) (φ : PeerPhase) (peer : Peer), phases[i]? = some φ →
    φ.stage = .inserted peer → peer.username = φ.username
  header : ∀ (i : Nat) (φ : PeerPhase) (text : String), phases[i]? = some φ →
    (φ.stage = .fetched text ∨ ∃ peers, φ.stage = .listed text peers) →
    serverConfigHeader text = initServerContents port privateKey
  lists : ∀ (i : Nat) (φ : PeerPhase) (text : String) (peers : List Peer), phases[i]? = some φ →
    φ.stage = .listed text peers → peers.Nodup

section Lists

variable {β γ : Type} {f : β → Option γ} {l : List β} {i : Nat} {a b : β}

/-- Replacing one entry replaces its contribution. -/
theorem filterMap_set_perm (hget : l[i]? = some a) :
    ((f a).toList ++ (l.set i b).filterMap f).Perm ((f b).toList ++ l.filterMap f) := by
  induction l generalizing i with
  | nil => cases hget
  | cons c l ih =>
    cases i with
    | zero =>
      cases hget
      rw [List.set_cons_zero, List.filterMap_cons, List.filterMap_cons]
      cases hfa : f a <;> cases hfb : f b <;> simp
      exact List.Perm.swap _ _ _
    | succ i =>
      have hrest := ih (by simpa using hget)
      rw [List.set_cons_succ, List.filterMap_cons, List.filterMap_cons]
      cases hc : f c with
      | none => exact hrest
      | some d =>
        have hleft : ((f a).toList ++ d :: (l.set i b).filterMap f).Perm
            (d :: ((f a).toList ++ (l.set i b).filterMap f)) := List.perm_middle
        have hright : (d :: ((f b).toList ++ l.filterMap f)).Perm
            ((f b).toList ++ d :: l.filterMap f) := List.perm_middle.symm
        exact hleft.trans ((hrest.cons d).trans hright)

end Lists

theorem mem_pendingPeers {phases : List PeerPhase} {peer : Peer} :
    peer ∈ pendingPeers phases ↔
      ∃ (i : Nat) (φ : PeerPhase), phases[i]? = some φ ∧ φ.stage = .inserted peer := by
  rw [pendingPeers, List.mem_filterMap]
  constructor
  · rintro ⟨φ, hφ, hpending⟩
    obtain ⟨i, hget⟩ := List.mem_iff_getElem?.mp hφ
    refine ⟨i, φ, hget, ?_⟩
    unfold PeerPhase.pending at hpending
    split at hpending
    · rename_i hstage
      cases hpending
      exact hstage
    · cases hpending
  · rintro ⟨i, φ, hget, hstage⟩
    exact ⟨φ, List.mem_of_getElem? hget, by simp [PeerPhase.pending, hstage]⟩

theorem mem_leavingUsers {phases : List PeerPhase} {username : String} :
    username ∈ leavingUsers phases ↔
      ∃ (i : Nat) (φ : PeerPhase), phases[i]? = some φ ∧ φ.stage = .written ∧ φ.username = username := by
  rw [leavingUsers, List.mem_filterMap]
  constructor
  · rintro ⟨φ, hφ, hleaving⟩
    obtain ⟨i, hget⟩ := List.mem_iff_getElem?.mp hφ
    refine ⟨i, φ, hget, ?_⟩
    unfold PeerPhase.leaving at hleaving
    split at hleaving
    · rename_i hstage
      cases hleaving
      exact ⟨hstage, rfl⟩
    · cases hleaving
  · rintro ⟨i, φ, hget, hstage, rfl⟩
    exact ⟨φ, List.mem_of_getElem? hget, by simp [PeerPhase.leaving, hstage]⟩

section Stages

variable {phases : List PeerPhase} {tid : Nat} {φ : PeerPhase}

theorem pendingPeers_set (hget : phases[tid]? = some φ) (stage : FileStage) :
    (φ.pending.toList ++ pendingPeers (phases.set tid ⟨φ.username, stage⟩)).Perm
      ((PeerPhase.pending ⟨φ.username, stage⟩).toList ++ pendingPeers phases) :=
  filterMap_set_perm hget

theorem leavingUsers_set (hget : phases[tid]? = some φ) (stage : FileStage) :
    (φ.leaving.toList ++ leavingUsers (phases.set tid ⟨φ.username, stage⟩)).Perm
      ((PeerPhase.leaving ⟨φ.username, stage⟩).toList ++ leavingUsers phases) :=
  filterMap_set_perm hget

end Stages

namespace BlocksAccounted

variable {port : Nat} {privateKey : String} {w w' : World} {phases : List PeerPhase} {tid : Nat}
  {φ ψ : PeerPhase}

/-- Handlers of different users. -/
theorem eq_of_username (h : BlocksAccounted port privateKey w phases) {i j : Nat}
    (hi : phases[i]? = some φ) (hj : phases[j]? = some ψ) (hname : φ.username = ψ.username) :
    i = j := by
  have hlt : i < (phases.map PeerPhase.username).length := by
    rw [List.length_map]
    exact (List.getElem?_eq_some_iff.mp hi).1
  exact (List.getElem?_inj hlt h.users).mp (by simp [hi, hj, hname])

/-- One handler gets to another stage. -/
theorem setStage (h : BlocksAccounted port privateKey w phases) (hget : phases[tid]? = some φ)
    {stage : FileStage} (husernames : (w'.db.peers.map Peer.username).Nodup)
    (hblocks : ∃ peers, Blocks port privateKey w' peers ∧
      (peers ++ pendingPeers (phases.set tid ⟨φ.username, stage⟩)).Perm
        (w'.db.peers.filter fun p =>
          p.username ∉ leavingUsers (phases.set tid ⟨φ.username, stage⟩)))
    (hown : ∀ peer, stage = .inserted peer → peer.username = φ.username)
    (hheader : ∀ text, (stage = .fetched text ∨ ∃ peers, stage = .listed text peers) →
      serverConfigHeader text = initServerContents port privateKey)
    (hlists : ∀ text peers, stage = .listed text peers → peers.Nodup) :
    BlocksAccounted port privateKey w' (phases.set tid ⟨φ.username, stage⟩) := by
  constructor
  case usernames => exact husernames
  case users =>
    have hsame : (phases.set tid ⟨φ.username, stage⟩).map PeerPhase.username =
        phases.map PeerPhase.username := by
      obtain ⟨hlt, rfl⟩ := List.getElem?_eq_some_iff.mp hget
      apply List.ext_getElem (by simp)
      intro i hi hi'
      simp only [List.map_set, List.getElem_set, List.getElem_map]
      split
      · rename_i heq
        simp [heq]
      · rfl
    rw [hsame]
    exact h.users
  case blocks => exact hblocks
  case own =>
    intro i ψ peer hi hstage
    rcases (getElem?_set_iff hget).mp hi with ⟨-, rfl⟩ | ⟨-, hold⟩
    · exact hown peer hstage
    · exact h.own i ψ peer hold hstage
  case header =>
    intro i ψ text hi hstage
    rcases (getElem?_set_iff hget).mp hi with ⟨-, rfl⟩ | ⟨-, hold⟩
    · exact hheader text hstage
    · exact h.header i ψ text hold hstage
  case lists =>
    intro i ψ text peers hi hstage
    rcases (getElem?_set_iff hget).mp hi with ⟨-, rfl⟩ | ⟨-, hold⟩
    · exact hlists text peers hstage
    · exact h.lists i ψ text peers hold hstage

/-- A call that spares the peers. -/
theorem same (h : BlocksAccounted port privateKey w phases) (hget : phases[tid]? = some φ)
    (hpeers : w'.db.peers = w.db.peers) (hfile : w'.wg.serverConfig = w.wg.serverConfig) :
    BlocksAccounted port privateKey w' (phases.set tid φ) := by
  have hset : phases.set tid φ = phases := by
    obtain ⟨hlt, rfl⟩ := List.getElem?_eq_some_iff.mp hget
    exact List.set_getElem_self hlt
  rw [hset]
  refine { h with usernames := ?_, blocks := ?_ }
  · rw [hpeers]
    exact h.usernames
  · rw [hpeers]
    obtain ⟨peers, hblocks, hperm⟩ := h.blocks
    exact ⟨peers, hfile.trans hblocks, hperm⟩

/-- A user whose handler has not written the file is not leaving. -/
theorem notMem_leavingUsers (h : BlocksAccounted port privateKey w phases)
    (hget : phases[tid]? = some φ) (hstage : φ.stage ≠ .written) :
    φ.username ∉ leavingUsers phases := by
  intro hmem
  obtain ⟨i, ψ, hi, hwritten, hname⟩ := mem_leavingUsers.mp hmem
  obtain rfl := h.eq_of_username hi hget hname
  rw [hget] at hi
  cases hi
  exact hstage hwritten

/-- The rows that count, when the same users are leaving. -/
theorem filter_leaving {rows : List Peer} {phases' : List PeerPhase}
    (hleaving : (leavingUsers phases').Perm (leavingUsers phases)) :
    (rows.filter fun p => p.username ∉ leavingUsers phases') =
      rows.filter fun p => p.username ∉ leavingUsers phases := by
  apply List.filter_congr
  intro p _
  simp only [hleaving.mem_iff]

theorem insert (h : BlocksAccounted port privateKey w phases) (hget : phases[tid]? = some φ)
    (hidle : φ.stage = .idle) {peer : Peer} (hname : peer.username = φ.username)
    (hfresh : w.db.getPeer φ.username = none) (hpeers : w'.db.peers = w.db.peers ++ [peer])
    (hfile : w'.wg.serverConfig = w.wg.serverConfig) :
    BlocksAccounted port privateKey w' (phases.set tid ⟨φ.username, .inserted peer⟩) := by
  have hpending : (pendingPeers (phases.set tid ⟨φ.username, .inserted peer⟩)).Perm
      (peer :: pendingPeers phases) := by
    simpa [PeerPhase.pending, hidle] using pendingPeers_set hget (.inserted peer)
  have hleaving : (leavingUsers (phases.set tid ⟨φ.username, .inserted peer⟩)).Perm
      (leavingUsers phases) := by
    simpa [PeerPhase.leaving, hidle] using leavingUsers_set hget (.inserted peer)
  refine h.setStage hget ?_ ?_ ?_ ?_ ?_
  · rw [hpeers]
    refine Db.nodup_map_append_singleton h.usernames ?_
    rw [hname]
    exact Db.getPeer_eq_none_iff.mp hfresh
  · obtain ⟨peers, hblocks, hperm⟩ := h.blocks
    refine ⟨peers, hfile.trans hblocks, ?_⟩
    have hstays : peer.username ∉ leavingUsers phases := by
      rw [hname]
      exact h.notMem_leavingUsers hget (by rw [hidle]; exact fun h => nomatch h)
    rw [filter_leaving hleaving, hpeers, List.filter_append,
      List.filter_cons_of_pos (by simpa using hstays), List.filter_nil]
    have hmiddle : (peers ++ peer :: pendingPeers phases).Perm
        (peer :: (peers ++ pendingPeers phases)) := List.perm_middle
    exact ((hpending.append_left peers).trans hmiddle).trans
      ((hperm.cons peer).trans (List.perm_append_singleton peer _).symm)
  · rintro _ ⟨⟩
    exact hname
  · rintro text (h | ⟨_, h⟩) <;> cases h
  · rintro text peers ⟨⟩

/-- The transaction of a creation. -/
theorem allocate (h : BlocksAccounted port privateKey w phases) (hget : phases[tid]? = some φ)
    (hidle : φ.stage = .idle) {owner : Owner} {publicKey : String} {candidateIps : List IPv4Address}
    {key : Option String} :
    BlocksAccounted port privateKey
      { w with db := (w.db.allocatePeer owner φ.username publicKey candidateIps key).2 }
      (phases.set tid (φ.next
        (.db (.allocatePeer owner φ.username publicKey candidateIps key))
        (w.db.allocatePeer owner φ.username publicKey candidateIps key).1)) := by
  have hstays : ∀ err, φ.next (.db (.allocatePeer owner φ.username publicKey candidateIps key))
      (.error err) = φ := by
    obtain ⟨username, stage⟩ := φ
    rintro err
    cases hidle
    rfl
  have hinserts : ∀ peer, φ.next (.db (.allocatePeer owner φ.username publicKey candidateIps key))
      (.ok peer) = ⟨φ.username, .inserted peer⟩ := fun _ => rfl
  rw [Db.allocatePeer_eq]
  cases hfree : w.db.firstFreeIp candidateIps with
  | none =>
    simp only [hstays]
    exact h.same hget rfl rfl
  | some ip =>
    cases hpeer : w.db.getPeer φ.username with
    | some peer =>
      simp only [hstays]
      exact h.same hget rfl rfl
    | none =>
      simp only [hinserts]
      exact h.insert hget hidle rfl hpeer rfl rfl

theorem append (h : BlocksAccounted port privateKey w phases) (hget : phases[tid]? = some φ)
    {peer : Peer} (hinserted : φ.stage = .inserted peer) (hpeers : w'.db.peers = w.db.peers)
    (hfile : w'.wg.serverConfig = w.wg.serverConfig ++ peerBlock peer) :
    BlocksAccounted port privateKey w' (phases.set tid ⟨φ.username, .idle⟩) := by
  have hpending : (peer :: pendingPeers (phases.set tid ⟨φ.username, .idle⟩)).Perm
      (pendingPeers phases) := by
    simpa [PeerPhase.pending, hinserted] using pendingPeers_set hget .idle
  have hleaving : (leavingUsers (phases.set tid ⟨φ.username, .idle⟩)).Perm
      (leavingUsers phases) := by
    simpa [PeerPhase.leaving, hinserted] using leavingUsers_set hget .idle
  refine h.setStage hget ?_ ?_ ?_ ?_ ?_
  · rw [hpeers]
    exact h.usernames
  · obtain ⟨peers, hblocks, hperm⟩ := h.blocks
    refine ⟨peers ++ [peer], ?_, ?_⟩
    · show w'.wg.serverConfig = _
      rw [hfile, hblocks]
      simp [serverText, String.append_assoc]
    · rw [filter_leaving hleaving, hpeers, List.append_assoc, List.singleton_append]
      exact (hpending.append_left peers).trans hperm
  · rintro peer ⟨⟩
  · rintro text (h | ⟨_, h⟩) <;> cases h
  · rintro text peers ⟨⟩

/-- A removal that reads changes nothing. -/
theorem reads (h : BlocksAccounted port privateKey w phases) (hget : phases[tid]? = some φ)
    {stage : FileStage} (hbefore : φ.pending = none ∧ φ.leaving = none)
    (hafter : PeerPhase.pending ⟨φ.username, stage⟩ = none ∧
      PeerPhase.leaving ⟨φ.username, stage⟩ = none)
    (hheader : ∀ text, (stage = .fetched text ∨ ∃ peers, stage = .listed text peers) →
      serverConfigHeader text = initServerContents port privateKey)
    (hlists : ∀ text peers, stage = .listed text peers → peers.Nodup) :
    BlocksAccounted port privateKey w (phases.set tid ⟨φ.username, stage⟩) := by
  have hpending : (pendingPeers (phases.set tid ⟨φ.username, stage⟩)).Perm
      (pendingPeers phases) := by
    simpa [hbefore, hafter] using pendingPeers_set hget stage
  have hleaving : (leavingUsers (phases.set tid ⟨φ.username, stage⟩)).Perm
      (leavingUsers phases) := by
    simpa [hbefore, hafter] using leavingUsers_set hget stage
  refine h.setStage hget h.usernames ?_ ?_ hheader hlists
  · obtain ⟨peers, hblocks, hperm⟩ := h.blocks
    refine ⟨peers, hblocks, ?_⟩
    rw [filter_leaving hleaving]
    exact (hpending.append_left peers).trans hperm
  · rintro peer rfl
    cases hafter.1

/-- A row whose block is yet to be appended is a row that counts. -/
theorem mem_of_pending (h : BlocksAccounted port privateKey w phases) {p : Peer}
    (hp : p ∈ pendingPeers phases) :
    p ∈ w.db.peers ∧ p.username ∉ leavingUsers phases := by
  obtain ⟨peers, -, hperm⟩ := h.blocks
  have hmem := hperm.mem_iff.mp (List.mem_append_right peers hp)
  exact ⟨List.mem_of_mem_filter hmem, by simpa using (List.mem_filter.mp hmem).2⟩

/-- What is fresh is, with the blocks yet to be appended, what the table says. -/
theorem perm_of_fresh (h : BlocksAccounted port privateKey w phases) (hget : phases[tid]? = some φ)
    {text : String} {listed : List Peer} (hlisted : φ.stage = .listed text listed)
    (hfresh : φ.Fresh w phases) {phases' : List PeerPhase}
    (hleaving : (leavingUsers phases').Perm (φ.username :: leavingUsers phases)) :
    ((listed.filter fun p => p.username ≠ φ.username) ++ pendingPeers phases).Perm
      (w.db.peers.filter fun p => p.username ∉ leavingUsers phases') := by
  have hother : ∀ p ∈ pendingPeers phases, p.username ≠ φ.username := by
    intro p hp hname
    obtain ⟨i, ψ, hi, hinserted⟩ := mem_pendingPeers.mp hp
    obtain rfl := h.eq_of_username hi hget ((h.own i ψ p hi hinserted).symm.trans hname)
    rw [hget] at hi
    cases hi
    rw [hlisted] at hinserted
    cases hinserted
  have hfresh : ∀ p, p.username ≠ φ.username → (p ∈ listed ↔
      p ∈ w.db.peers ∧ p ∉ pendingPeers phases ∧ p.username ∉ leavingUsers phases) := by
    intro p hne
    simp only [PeerPhase.Fresh, hlisted] at hfresh
    by_cases hmem : p ∈ listed ++ w.db.peers
    · exact hfresh p hmem hne
    · rw [List.mem_append, not_or] at hmem
      simp [hmem]
  have hrows : w.db.peers.Nodup := List.Nodup.of_map _ h.usernames
  have hpending : (pendingPeers phases).Nodup := by
    obtain ⟨peers, -, hperm⟩ := h.blocks
    exact (List.nodup_append.mp (hperm.nodup_iff.mpr (hrows.filter _))).2.1
  have hnodup : ((listed.filter fun p => p.username ≠ φ.username) ++ pendingPeers phases).Nodup := by
    refine List.Nodup.append ((h.lists tid φ text listed hget hlisted).filter _) hpending ?_
    intro p hp hp'
    obtain ⟨hmem, hne⟩ := List.mem_filter.mp hp
    exact ((hfresh p (by simpa using hne)).mp hmem).2.1 hp'
  rw [List.perm_ext_iff_of_nodup hnodup (hrows.filter _)]
  intro p
  simp only [List.mem_append, List.mem_filter, decide_eq_true_eq, hleaving.mem_iff, List.mem_cons,
    not_or]
  constructor
  · rintro (⟨hmem, hne⟩ | hp)
    · obtain ⟨hrow, -, hstays⟩ := (hfresh p hne).mp hmem
      exact ⟨hrow, hne, hstays⟩
    · exact ⟨(h.mem_of_pending hp).1, hother p hp, (h.mem_of_pending hp).2⟩
  · rintro ⟨hrow, hne, hstays⟩
    by_cases hp : p ∈ pendingPeers phases
    · exact Or.inr hp
    · exact Or.inl ⟨(hfresh p hne).mpr ⟨hrow, hp, hstays⟩, hne⟩

theorem write (h : BlocksAccounted port privateKey w phases) (hget : phases[tid]? = some φ)
    {text : String} {listed : List Peer} (hlisted : φ.stage = .listed text listed)
    (hfresh : φ.Fresh w phases) (hpeers : w'.db.peers = w.db.peers)
    (hfile : w'.wg.serverConfig = String.join (serverConfigHeader text ::
      (listed.filter fun p => p.username ≠ φ.username).map peerBlock)) :
    BlocksAccounted port privateKey w' (phases.set tid ⟨φ.username, .written⟩) := by
  have hpending : (pendingPeers (phases.set tid ⟨φ.username, .written⟩)).Perm
      (pendingPeers phases) := by
    simpa [PeerPhase.pending, hlisted] using pendingPeers_set hget .written
  have hleaving : (leavingUsers (phases.set tid ⟨φ.username, .written⟩)).Perm
      (φ.username :: leavingUsers phases) := by
    simpa [PeerPhase.leaving, hlisted] using leavingUsers_set hget .written
  refine h.setStage hget ?_ ?_ ?_ ?_ ?_
  · rw [hpeers]
    exact h.usernames
  · refine ⟨listed.filter fun p => p.username ≠ φ.username, ?_, ?_⟩
    · show w'.wg.serverConfig = _
      rw [hfile, h.header tid φ text hget (Or.inr ⟨listed, hlisted⟩)]
      rfl
    · rw [hpeers]
      refine (hpending.append_left _).trans (h.perm_of_fresh hget hlisted hfresh hleaving)
  · rintro peer ⟨⟩
  · rintro text (h | ⟨_, h⟩) <;> cases h
  · rintro text peers ⟨⟩

theorem delete (h : BlocksAccounted port privateKey w phases) (hget : phases[tid]? = some φ)
    (hwritten : φ.stage = .written)
    (hpeers : w'.db.peers = w.db.peers.filter fun p => p.username ≠ φ.username)
    (hfile : w'.wg.serverConfig = w.wg.serverConfig) :
    BlocksAccounted port privateKey w' (phases.set tid ⟨φ.username, .idle⟩) := by
  have hpending : (pendingPeers (phases.set tid ⟨φ.username, .idle⟩)).Perm
      (pendingPeers phases) := by
    simpa [PeerPhase.pending, hwritten] using pendingPeers_set hget .idle
  have hleaving : (φ.username :: leavingUsers (phases.set tid ⟨φ.username, .idle⟩)).Perm
      (leavingUsers phases) := by
    simpa [PeerPhase.leaving, hwritten] using leavingUsers_set hget .idle
  refine h.setStage hget ?_ ?_ ?_ ?_ ?_
  · rw [hpeers]
    exact h.usernames.sublist (List.filter_sublist.map _)
  · obtain ⟨peers, hblocks, hperm⟩ := h.blocks
    refine ⟨peers, hfile.trans hblocks, ?_⟩
    have hrows : (w'.db.peers.filter fun p =>
          p.username ∉ leavingUsers (phases.set tid ⟨φ.username, .idle⟩)) =
        w.db.peers.filter fun p => p.username ∉ leavingUsers phases := by
      rw [hpeers, List.filter_filter]
      apply List.filter_congr
      intro p _
      have hmem : p.username ∈ leavingUsers phases ↔ p.username = φ.username ∨
          p.username ∈ leavingUsers (phases.set tid ⟨φ.username, .idle⟩) := by
        rw [← hleaving.mem_iff, List.mem_cons]
      simp [hmem, Bool.and_comm]
    rw [hrows]
    exact (hpending.append_left peers).trans hperm
  · rintro peer ⟨⟩
  · rintro text (h | ⟨_, h⟩) <;> cases h
  · rintro text peers ⟨⟩

end BlocksAccounted

/-! ## One step -/

section Steps

variable {port : Nat} {privateKey : String} {w w' : World} {phases : List PeerPhase} {tid : Nat}
  {φ : PeerPhase} {op : DaemonOp} {res : op.Res}

/-- Without failures the answers are the expected ones. -/
theorem expected_of_noFault (hsem : daemonSem noFault w op res w') : φ.expected op res := by
  obtain ⟨choice, hpolicy, hexec⟩ := hsem
  cases op with
  | wg op =>
    cases hexec
    cases op with
    | genkey | pubkey privateKey | parseInterfaceSection => exact hpolicy
    | readServerConfig =>
      cases hpolicy
      exact ⟨_, rfl⟩
    | _ =>
      cases hpolicy
      rfl
  | db op =>
    cases hexec
    cases op with
    | allocatePeer owner username publicKey candidateIps privateKey =>
      intro peer hpeer
      simp only [DbOp.exec, Db.allocatePeer_eq] at hpeer
      split at hpeer
      · cases hpeer
      · split at hpeer <;> cases hpeer
        rfl
    | _ => trivial
  | docker op | filter op | host op => trivial

/-- What a call that spares the peers leaves. -/
theorem sparesPeers_same (hop : sparesPeers op) (hsem : daemonSem noFault w op res w') :
    w'.db.peers = w.db.peers ∧ w'.wg.serverConfig = w.wg.serverConfig := by
  obtain ⟨choice, -, hexec⟩ := hsem
  cases op with
  | db op =>
    cases hexec
    cases op <;> first | exact ⟨rfl, rfl⟩ | exact hop.elim
  | wg op =>
    cases hexec
    refine ⟨rfl, ?_⟩
    cases op with
    | genkey | pubkey privateKey | parseInterfaceSection => rfl
    | readServerConfig | appendServerConfig block | writeServerConfig text => exact hop.elim
    | _ => cases choice <;> rfl
  | filter op =>
    cases hexec
    exact ⟨rfl, rfl⟩
  | docker op | host op => exact hop.elim

/-- **One call.** -/
theorem BlocksAccounted.step (h : BlocksAccounted port privateKey w phases)
    (hkey : IsKeyText privateKey) (hget : phases[tid]? = some φ) (hadmits : φ.admits op)
    (hsem : daemonSem noFault w op res w') (hok : WritesFresh w phases ⟨tid, op, res⟩) :
    φ.expected op res ∧ BlocksAccounted port privateKey w' (phases.set tid (φ.next op res)) := by
  refine ⟨expected_of_noFault hsem, ?_⟩
  by_cases hspares : sparesPeers op
  · obtain ⟨hpeers, hfile⟩ := sparesPeers_same hspares hsem
    rw [PeerPhase.next_of_sparesPeers res hspares]
    exact h.same hget hpeers hfile
  obtain ⟨choice, hpolicy, hexec⟩ := hsem
  cases op with
  | db op =>
    cases hexec
    cases op with
    | allocatePeer owner username publicKey candidateIps privateKey =>
      obtain ⟨hidle, rfl⟩ := hadmits
      exact h.allocate hget hidle
    | getAllPeers =>
      obtain ⟨text, hfetched⟩ := hadmits
      have hnext : φ.next (.db .getAllPeers) w.db.peers =
          ⟨φ.username, .listed text w.db.peers⟩ := by
        simp [PeerPhase.next, hfetched, FileStage.next]
      simp only [DbOp.exec]
      rw [hnext]
      refine h.reads hget (by simp [PeerPhase.pending, PeerPhase.leaving, hfetched]) ⟨rfl, rfl⟩ ?_ ?_
      · rintro text' (⟨⟨⟩⟩ | ⟨peers, hlisted⟩)
        cases hlisted
        exact h.header tid φ text hget (Or.inl hfetched)
      · rintro text' peers ⟨⟩
        exact List.Nodup.of_map _ h.usernames
    | removePeer username =>
      obtain ⟨hwritten, rfl⟩ := hadmits
      have hnext : ∀ removed : Bool, φ.next (.db (.removePeer φ.username)) removed =
          ⟨φ.username, .idle⟩ := by
        intro removed
        simp [PeerPhase.next, hwritten, FileStage.next]
      simp only [DbOp.exec]
      rw [hnext]
      exact h.delete hget hwritten rfl rfl
    | _ => exact absurd hadmits hspares
  | wg op =>
    cases hexec
    cases op with
    | readServerConfig =>
      have hidle : φ.stage = .idle := hadmits
      cases hpolicy
      have hnext : φ.next (.wg .readServerConfig) (.ok w.wg.serverConfig) =
          ⟨φ.username, .fetched w.wg.serverConfig⟩ := by
        simp [PeerPhase.next, hidle, FileStage.next]
      simp only [WgOp.exec]
      rw [hnext]
      refine h.reads hget (by simp [PeerPhase.pending, PeerPhase.leaving, hidle]) ⟨rfl, rfl⟩ ?_ ?_
      · rintro text (hfetched | ⟨peers, hlisted⟩)
        · cases hfetched
          obtain ⟨peers, hblocks, -⟩ := h.blocks
          rw [show w.wg.serverConfig = serverText port privateKey peers from hblocks]
          exact serverConfigHeader_serverText hkey
        · cases hlisted
      · rintro text peers ⟨⟩
    | appendServerConfig block =>
      obtain ⟨peer, hinserted, rfl⟩ := hadmits
      cases hpolicy
      have hnext : φ.next (.wg (.appendServerConfig (peerBlock peer))) (.ok ()) =
          ⟨φ.username, .idle⟩ := by
        simp [PeerPhase.next, hinserted, FileStage.next]
      simp only [WgOp.exec]
      rw [hnext]
      exact h.append hget hinserted rfl rfl
    | writeServerConfig text =>
      obtain ⟨old, listed, hlisted, rfl⟩ := hadmits
      cases hpolicy
      have hfresh : φ.Fresh w phases := hok φ hget
      simp only [WgOp.exec]
      have hnext : ∀ text, φ.next (.wg (.writeServerConfig text)) (.ok ()) =
          ⟨φ.username, .written⟩ := by
        intro text
        simp [PeerPhase.next, hlisted, FileStage.next]
      rw [hnext]
      exact h.write hget hlisted hfresh rfl rfl
    | _ => exact absurd hadmits hspares
  | filter op => exact absurd trivial hspares
  | docker op | host op => exact hadmits.elim

end Steps

/-! ## Interleaved handlers -/

abbrev PeersConfig := Config daemonEffect PyErr PeerPhase World

/-- One thread for each connection. -/
def startChanges (env : DaemonEnv) (changes : List PeerRequest) (w : World) : PeersConfig :=
  ⟨w, changes.map fun change => ⟨⟨usernameOf change.userId, .idle⟩, change.prog env⟩⟩

/-- Handlers that have all come to their end owe nothing. -/
theorem BlocksAccounted.blocksOfRows {port : Nat} {privateKey : String} {w : World}
    {phases : List PeerPhase} (h : BlocksAccounted port privateKey w phases)
    (hidle : ∀ φ ∈ phases, φ.stage = .idle) : BlocksOfRows port privateKey w := by
  have hpending : pendingPeers phases = [] := by
    rw [pendingPeers, List.filterMap_eq_nil_iff]
    intro φ hφ
    simp [PeerPhase.pending, hidle φ hφ]
  have hleaving : leavingUsers phases = [] := by
    rw [leavingUsers, List.filterMap_eq_nil_iff]
    intro φ hφ
    simp [PeerPhase.leaving, hidle φ hφ]
  obtain ⟨peers, hblocks, hperm⟩ := h.blocks
  exact ⟨peers, hblocks, by simpa [hpending, hleaving] using hperm⟩

theorem blocksAccounted_start {port : Nat} {privateKey : String} {env : DaemonEnv}
    {changes : List PeerRequest} {w : World} (husers : (changes.map PeerRequest.userId).Nodup)
    (hdb : w.db.WellFormed) (hblocks : BlocksOfRows port privateKey w) :
    BlocksAccounted port privateKey w (startChanges env changes w).phases := by
  have hphases : (startChanges env changes w).phases =
      changes.map fun change => ⟨usernameOf change.userId, .idle⟩ := by
    simp [startChanges, Config.phases, Function.comp_def]
  have hidle : ∀ (i : Nat) (φ : PeerPhase),
      (startChanges env changes w).phases[i]? = some φ → φ.stage = .idle := by
    intro i φ hφ
    rw [hphases] at hφ
    obtain ⟨change, -, rfl⟩ := List.mem_map.mp (List.mem_of_getElem? hφ)
    rfl
  constructor
  case usernames => exact hdb.usernames
  case users =>
    rw [hphases, List.map_map]
    have hnames : (changes.map PeerRequest.userId).map usernameOf =
        changes.map (PeerPhase.username ∘ fun change => ⟨usernameOf change.userId, .idle⟩) := by
      simp [Function.comp_def]
    rw [← hnames]
    exact husers.map usernameOf_injective
  case blocks =>
    obtain ⟨peers, hpeers, hperm⟩ := hblocks
    have hpending : pendingPeers (startChanges env changes w).phases = [] := by
      rw [hphases, pendingPeers, List.filterMap_eq_nil_iff]
      simp [PeerPhase.pending]
    have hleaving : leavingUsers (startChanges env changes w).phases = [] := by
      rw [hphases, leavingUsers, List.filterMap_eq_nil_iff]
      simp [PeerPhase.leaving]
    exact ⟨peers, hpeers, by simpa [hpending, hleaving] using hperm⟩
  case own =>
    intro i φ peer hφ hstage
    rw [hidle i φ hφ] at hstage
    cases hstage
  case header =>
    intro i φ text hφ hstage
    rw [hidle i φ hφ] at hstage
    rcases hstage with h | ⟨_, h⟩ <;> cases h
  case lists =>
    intro i φ text peers hφ hstage
    rw [hidle i φ hφ] at hstage
    cases hstage

/-- **No block is lost.**  Whatever handlers of different users do in any interleaving without
    failures: as long as a removal writes the file only from what is fresh, the blocks of the file are
    in the end those of the rows, each once. -/
theorem blocks_survive (env : DaemonEnv) (changes : List PeerRequest) (port : Nat)
    (privateKey : String) (w : World) (c : PeersConfig) (hkey : IsKeyText privateKey)
    (husers : (changes.map PeerRequest.userId).Nodup) (hdb : w.db.WellFormed)
    (hblocks : BlocksOfRows port privateKey w)
    (hreach : Reach (daemonSem noFault) PeerPhase.next WritesFresh (startChanges env changes w) c)
    (hfinished : c.Finished) : BlocksOfRows port privateKey c.world := by
  have hkeeps : ∀ world phases tid phase op res world',
      BlocksAccounted port privateKey world phases → phases[tid]? = some phase →
      PeerPhase.admits phase op → daemonSem noFault world op res world' →
      WritesFresh world phases ⟨tid, op, res⟩ →
      phase.expected op res ∧
        BlocksAccounted port privateKey world' (phases.set tid (phase.next op res)) :=
    fun _ _ _ _ _ _ _ h hget hadmits hsem hok => h.step hkey hget hadmits hsem hok
  have hconf : ∀ thread ∈ (startChanges env changes w).threads,
      ChangesPeer thread.prog (fun _ φ => φ.stage = .idle) thread.phase := by
    intro thread hthread
    obtain ⟨change, -, rfl⟩ := List.mem_map.mp hthread
    exact changesPeer_prog
  obtain ⟨haccounted, hthreads⟩ :=
    reach_invariant hkeeps hconf (blocksAccounted_start husers hdb hblocks) hreach
  apply haccounted.blocksOfRows
  intro φ hφ
  obtain ⟨thread, hthread, rfl⟩ := List.mem_map.mp hφ
  have hends := hthreads thread hthread
  rw [hfinished thread hthread] at hends
  exact hends

/-! ## Two schedules -/

/-- The peer of the second user is there. -/
def onePeerServer : World :=
  let peer : Peer := ⟨⟨"team", 2⟩, usernameOf 2, dotted 10 8 0 2, "public", some "private"⟩
  { freshServer with
    db := { Db.empty with peers := [peer] }
    wg := ⟨serverText 51820 "server" [peer], [], []⟩ }

/-- The second user's peer is revoked and the fifth user's provisioned; in each block, one of the
    handlers makes so many calls. -/
def revokeAndProvision (check : World → List PeerPhase → Event daemonEffect → Bool)
    (blocks : List (Nat × Nat)) : Option PeersConfig :=
  quietThreads PeerPhase.next check blocks
    (startChanges DaemonEnv.default [.remove 2, .ensure 5 ⟨"team", 1⟩] onePeerServer)

theorem reach_revokeAndProvision {check : World → List PeerPhase → Event daemonEffect → Bool}
    {blocks : List (Nat × Nat)} {c : PeersConfig} (h : revokeAndProvision check blocks = some c) :
    Reach (daemonSem noFault) PeerPhase.next (fun w phases event => check w phases event = true)
      (startChanges DaemonEnv.default [.remove 2, .ensure 5 ⟨"team", 1⟩] onePeerServer) c :=
  reach_quietThreads h

def writesFresh (w : World) (phases : List PeerPhase) (event : Event daemonEffect) : Bool :=
  match event.op, phases[event.tid]? with
  | .wg (.writeServerConfig _), some φ => φ.Fresh w phases
  | _, _ => true

theorem writesFresh_of_check {w : World} {phases : List PeerPhase} {event : Event daemonEffect}
    (h : writesFresh w phases event = true) : WritesFresh w phases event := by
  obtain ⟨tid, op, res⟩ := event
  unfold WritesFresh
  split
  · rename_i text hop
    intro φ hφ
    rw [Option.mem_def] at hφ
    simp only [writesFresh, hφ] at h
    simp only at hop
    subst hop
    exact of_decide_eq_true h
  · trivial

/-- The peer is provisioned between the lookup and the reads of the revocation. -/
theorem provisionedBefore_returns :
    (revokeAndProvision writesFresh [(0, 2), (1, 21), (0, 15)]).any (fun c => c.isFinished &&
      c.world.db.peers.map Peer.username = ["user_5"]) = true := by
  decide +kernel

theorem onePeerServer_blocks : BlocksOfRows 51820 "server" onePeerServer :=
  ⟨onePeerServer.db.peers, rfl, List.Perm.refl _⟩

theorem onePeerServer_wellFormed : onePeerServer.db.WellFormed := by
  constructor <;> decide +kernel

theorem blocks_survive_provisionedBefore :
    ∃ c, (revokeAndProvision writesFresh [(0, 2), (1, 21), (0, 15)] = some c ∧
      c.world.db.peers.map Peer.username = ["user_5"]) ∧ BlocksOfRows 51820 "server" c.world := by
  obtain ⟨c, hrun, hchecks⟩ := (Option.any_eq_true _ _).mp provisionedBefore_returns
  obtain ⟨hfinished, hpeers⟩ := Bool.and_eq_true_iff.mp hchecks
  refine ⟨c, ⟨hrun, of_decide_eq_true hpeers⟩, ?_⟩
  exact blocks_survive DaemonEnv.default [.remove 2, .ensure 5 ⟨"team", 1⟩] 51820 "server"
    onePeerServer c (by decide +kernel) (by decide) onePeerServer_wellFormed onePeerServer_blocks
    ((reach_revokeAndProvision hrun).mono fun _ _ _ => writesFresh_of_check)
    (Config.finished_of_isFinished hfinished)

/-- The peer is provisioned between the reads of the revocation and its write. -/
theorem provisionedBetween_loses :
    (revokeAndProvision (fun _ _ _ => true) [(0, 4), (1, 21), (0, 13)]).any (fun c =>
      c.isFinished && decide (c.world.db.peers.map Peer.username = ["user_5"] ∧
        c.world.wg.serverConfig = initServerContents 51820 "server")) = true := by
  decide +kernel

/-- The row is there, and the file has no block. -/
theorem not_blocks_survive :
    ¬ ∀ (env : DaemonEnv) (changes : List PeerRequest) (port : Nat) (privateKey : String)
      (w : World) (c : PeersConfig), IsKeyText privateKey →
      (changes.map PeerRequest.userId).Nodup → w.db.WellFormed → BlocksOfRows port privateKey w →
      Reach (daemonSem noFault) PeerPhase.next (fun _ _ _ => True) (startChanges env changes w) c →
      c.Finished → BlocksOfRows port privateKey c.world := by
  intro hall
  obtain ⟨c, hrun, hchecks⟩ := (Option.any_eq_true _ _).mp provisionedBetween_loses
  obtain ⟨hfinished, hchecks⟩ := Bool.and_eq_true_iff.mp hchecks
  obtain ⟨hpeers, hfile⟩ := of_decide_eq_true hchecks
  obtain ⟨peers, hblocks, hperm⟩ := hall DaemonEnv.default [.remove 2, .ensure 5 ⟨"team", 1⟩] 51820
    "server" onePeerServer c (by decide +kernel) (by decide) onePeerServer_wellFormed
    onePeerServer_blocks ((reach_revokeAndProvision hrun).mono fun _ _ _ _ => trivial)
    (Config.finished_of_isFinished hfinished)
  have hlength : peers.length = 1 := by
    have hrows := congrArg List.length hpeers
    rw [List.length_map] at hrows
    rw [hperm.length_eq, hrows]
    rfl
  obtain ⟨peer, rfl⟩ := List.length_eq_one_iff.mp hlength
  -- the block would stand behind the header
  have htext := congrArg String.length (hfile.symm.trans hblocks)
  simp [serverText, peerBlock, toString_string] at htext

end EdoPlugin
