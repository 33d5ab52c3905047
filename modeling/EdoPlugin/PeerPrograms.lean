import EdoPlugin.CallRules
import EdoPlugin.DatabaseInvariant
import EdoPlugin.Wireguard

/-!
# Adding and removing a peer

What `add_peer` and `remove_peer` do to the `peers` table and to `wg0.conf`, whichever of their calls
fail.  A creation that fails takes its row back; what it has written to the file stays there.
-/

namespace EdoPlugin

open Interaction

variable {policy : Policy} {α : Type} {w : World}

/-- The calls that concern neither the tables nor `wg0.conf`. -/
def sparesServerFile : DaemonOp → Prop
  | .wg (.appendServerConfig _) | .wg (.writeServerConfig _) => False
  | .wg _ => True
  | _ => False

theorem wp_sparesServerFile {p : Daemon α} (hp : CallsOnly sparesServerFile p) :
    wp (daemonSem policy) (fun _ _ => True) p
      (fun _ w' => w'.db = w.db ∧ w'.wg.serverConfig = w.wg.serverConfig) w := by
  let I : World → Prop := fun w' => w'.db = w.db ∧ w'.wg.serverConfig = w.wg.serverConfig
  have hI : ∀ w₁ op res w₂, sparesServerFile op → I w₁ → daemonSem policy w₁ op res w₂ → I w₂ := by
    rintro w₁ op res w₂ hcall hw ⟨choice, -, hexec⟩
    cases op with
    | wg op =>
      cases hexec
      refine ⟨hw.1, Eq.trans ?_ hw.2⟩
      cases op with
      | appendServerConfig block | writeServerConfig text => exact hcall.elim
      | genkey | pubkey privateKey | parseInterfaceSection => rfl
      | _ => cases choice <;> rfl
    | db op | docker op | filter op | host op => exact hcall.elim
  exact wp_guard_mono (hp.preserves hI ⟨rfl, rfl⟩) fun _ _ _ => trivial

theorem callsOnly_wgOutput {A : DaemonOp → Prop} {what : String} {result : Except CmdFault String} :
    CallsOnly A (wgOutput what result) := by
  unfold wgOutput
  split <;> constructor

theorem callsOnly_loggedWg {A : DaemonOp → Prop} {result : Except CmdFault Unit} :
    CallsOnly A (loggedWg result) := by
  unfold loggedWg
  split <;> constructor

theorem callsOnly_generateKeypair : CallsOnly sparesServerFile generateKeypair := by
  unfold generateKeypair
  refine CallsOnly.bind (CallsOnly.perform trivial) fun priv => ?_
  refine CallsOnly.bind callsOnly_wgOutput fun privateKey => ?_
  refine CallsOnly.bind (CallsOnly.perform trivial) fun pub => ?_
  exact CallsOnly.bind callsOnly_wgOutput fun publicKey => .ret

theorem callsOnly_peerKeys {publicKey : Option String} :
    CallsOnly sparesServerFile (peerKeys publicKey) := by
  cases publicKey with
  | some publicKey =>
    unfold peerKeys
    simp only
    split
    · exact CallsOnly.ret
    · exact CallsOnly.raise
  | none => exact CallsOnly.bind callsOnly_generateKeypair fun pair => .ret

/-! ## Adding -/

/-- After the block `publish_peer` concerns itself with the live interface and the client file. -/
theorem callsOnly_afterAppend {peer : Peer} {server : ServerConfig} :
    CallsOnly sparesServerFile (do
      liveAddPeer peer
      let clientText := renderClientConfig peer server
      let made ← callWg .mkClientsDir
      (Prog.ofExcept made : Daemon Unit)
      let written ← callWg (.writeClientFile peer.username clientText)
      (Prog.ofExcept written : Daemon Unit)
      let protected_ ← callWg (.chmodClientFile peer.username)
      (Prog.ofExcept protected_ : Daemon Unit)
      return clientText : Daemon String) := by
  refine CallsOnly.bind ?_ fun _ => ?_
  · exact CallsOnly.bind (CallsOnly.perform trivial) fun _ => callsOnly_loggedWg
  refine CallsOnly.bind (CallsOnly.perform trivial) fun made => ?_
  refine CallsOnly.bind CallsOnly.ofExcept fun _ => ?_
  refine CallsOnly.bind (CallsOnly.perform trivial) fun written => ?_
  refine CallsOnly.bind CallsOnly.ofExcept fun _ => ?_
  refine CallsOnly.bind (CallsOnly.perform trivial) fun protected_ => ?_
  exact CallsOnly.bind CallsOnly.ofExcept fun _ => .ret

/-- A creation that returns has written the block; one that fails leaves the tables alone, too. -/
theorem wp_publishPeer {peer : Peer} {server : ServerConfig} :
    wp (daemonSem policy) (fun _ _ => True) (publishPeer peer server)
      (fun out w' => w'.db = w.db ∧ ∀ text, out = .ok text →
        w'.wg.serverConfig = w.wg.serverConfig ++ peerBlock peer) w := by
  have happend : wp (daemonSem policy) (fun _ _ => True) (appendPeerToServerConfig peer)
      (fun out w' => w'.db = w.db ∧ (out = .ok () →
        w'.wg.serverConfig = w.wg.serverConfig ++ peerBlock peer)) w := by
    refine wp_callWg trivial fun fault _ => wp_ofExcept ?_
    cases fault with
    | some err => exact ⟨rfl, fun h => nomatch h⟩
    | none => exact ⟨rfl, fun _ => rfl⟩
  refine wp_seq happend (fun _ w₁ hblock => ?_) fun err w₁ hfailed => ⟨hfailed.1, fun _ h => nomatch h⟩
  refine wp_mono (wp_sparesServerFile callsOnly_afterAppend) fun out w' hsame => ?_
  exact ⟨hsame.1.trans hblock.1, fun text _ => hsame.2.trans (hblock.2 rfl)⟩

/-- The peer that a successful `add_peer` has made. -/
structure PeerAdded (owner : Owner) (username : String) (w : World) (peer : Peer) (w' : World) :
    Prop where
  owner_eq : peer.owner = owner
  username_eq : peer.username = username
  fresh : w.db.getPeer username = none
  address : w.db.firstFreeIp peerCandidateIps = some peer.ipAddress
  db : w'.db = { w.db with peers := w.db.peers ++ [peer] }
  file : w'.wg.serverConfig = w.wg.serverConfig ++ peerBlock peer

/-- Nobody goes with a peer that is not there. -/
theorem Db.otherPeers_of_none {db : Db} {username : String} (h : db.getPeer username = none) :
    db.peers.filter (fun p => p.username ≠ username) = db.peers := by
  rw [List.filter_eq_self]
  intro p hp
  exact decide_eq_true (Db.getPeer_eq_none_iff.mp h p hp)

theorem removePeer_append {db : Db} {peer : Peer} (h : db.getPeer peer.username = none) :
    (Db.removePeer { db with peers := db.peers ++ [peer] } peer.username).2 = db := by
  simp only [Db.removePeer, List.filter_append, Db.otherPeers_of_none h]
  simp

/-- A row that is there is published, or taken back. -/
theorem wp_publishAllocated {peer : Peer} {server : ServerConfig} {w₁ : World}
    (hfresh : w.db.getPeer peer.username = none)
    (hdb : w₁.db = { w.db with peers := w.db.peers ++ [peer] })
    (hfile : w₁.wg.serverConfig = w.wg.serverConfig) :
    wp (daemonSem policy) (fun _ _ => True)
      ((publishPeer peer server).catching (rollBackPeer peer.username))
      (fun out w' => match out with
        | .ok _ => w'.db = { w.db with peers := w.db.peers ++ [peer] } ∧
            w'.wg.serverConfig = w.wg.serverConfig ++ peerBlock peer
        | .error _ => w'.db = w.db) w₁ := by
  refine wp_catching.mpr (wp_mono wp_publishPeer fun out w' hpublished => ?_)
  obtain ⟨hdb', hfile'⟩ := hpublished
  rw [hdb] at hdb'
  cases out with
  | ok text => exact ⟨hdb', by rw [hfile' text rfl, hfile]⟩
  | error err =>
    refine wp_callDb trivial ?_
    have hremoved := removePeer_append hfresh
    rw [← hdb'] at hremoved
    exact hremoved

/-- `add_peer`: what the caller knows of the keys, it knows of the key of the peer. -/
theorem wp_addPeer {owner : Owner} {username : String} {server : ServerConfig}
    {publicKey : Option String} {K : String → Prop}
    (hkeys : wp (daemonSem policy) (fun _ _ => True) (peerKeys publicKey)
      (returning fun keys _ => K keys.1) w) :
    wp (daemonSem policy) (fun _ _ => True) (addPeer owner username server publicKey)
      (fun out w' => match out with
        | .ok config => PeerAdded owner username w config.peer w' ∧ K config.peer.publicKey
        | .error _ => w'.db = w.db) w := by
  refine wp_seq (wp_and (wp_sparesServerFile callsOnly_peerKeys) hkeys) (fun keys w₁ hw₁ => ?_)
    fun err w₁ hw₁ => hw₁.1.1
  obtain ⟨⟨hdb, hfile⟩, hkey⟩ := hw₁
  refine wp_callDb trivial ?_
  simp only [DbOp.exec, Db.allocatePeer_eq, hdb]
  cases hfree : w.db.firstFreeIp peerCandidateIps with
  | none => rfl
  | some ip =>
    cases hfresh : w.db.getPeer username with
    | some peer => rfl
    | none =>
      simp only [Prog.ofExcept, Prog.bind_eq, Prog.bind_ret]
      refine wp_bind.mpr (wp_mono (wp_publishAllocated hfresh rfl hfile) fun out w' hout => ?_)
      cases out with
      | ok text => exact ⟨⟨rfl, rfl, hfresh, hfree, hout.1, hout.2⟩, hkey⟩
      | error err => exact hout

/-! ## Removing -/

/-- The server file without the block of one peer. -/
def rewrittenConfig (db : Db) (excludeUsername text : String) : String :=
  String.join (serverConfigHeader text ::
    (db.peers.filter fun p => p.username ≠ excludeUsername).map peerBlock)

theorem wp_rewriteServerConfig {username : String} :
    wp (daemonSem policy) (fun _ _ => True) (rewriteServerConfig username)
      (fun out w' => w'.db = w.db ∧
        (out = .ok () → w'.wg.serverConfig = rewrittenConfig w.db username w.wg.serverConfig)) w := by
  refine wp_callWg trivial fun fault _ => ?_
  cases fault with
  | some err => exact ⟨rfl, fun h => nomatch h⟩
  | none =>
    refine wp_callDb trivial (wp_callWg trivial fun fault _ => wp_ofExcept ?_)
    cases fault with
    | some err => exact ⟨rfl, fun h => nomatch h⟩
    | none => exact ⟨rfl, fun _ => rfl⟩

/-- `remove_peer`: it fails before the row is gone, or after. -/
theorem wp_removePeer {username : String} :
    wp (daemonSem policy) (fun _ _ => True) (removePeer username)
      (fun out w' => match out with
        | .ok false => w.db.getPeer username = none ∧ w'.db = w.db ∧
            w'.wg.serverConfig = w.wg.serverConfig
        | .ok true => w.db.getPeer username ≠ none ∧ w'.db = (w.db.removePeer username).2 ∧
            w'.wg.serverConfig = rewrittenConfig w.db username w.wg.serverConfig
        | .error _ => w'.db = w.db ∨ w'.db = (w.db.removePeer username).2) w := by
  refine wp_callDb trivial ?_
  cases hpeer : w.db.getPeer username with
  | none =>
    simp only [DbOp.exec, hpeer]
    exact ⟨trivial, rfl, rfl⟩
  | some peer =>
    simp only [DbOp.exec, hpeer]
    have hlive : CallsOnly sparesServerFile
        (callWg (.removeLivePeer peer.publicKey) >>= loggedWg) :=
      CallsOnly.bind (CallsOnly.perform trivial) fun _ => callsOnly_loggedWg
    show wp _ _ ((callWg (.removeLivePeer peer.publicKey) >>= loggedWg) >>= fun _ => do
      rewriteServerConfig username
      let _ ← callDb (.removePeer username)
      let unlinked ← callWg (.unlinkClientFile username)
      (Prog.ofExcept unlinked : Daemon Unit)
      return true) _ w
    refine wp_seq (wp_sparesServerFile hlive) (fun _ w₁ hw₁ => ?_) fun err w₁ hw₁ => Or.inl hw₁.1
    refine wp_seq wp_rewriteServerConfig (fun _ w₂ hw₂ => ?_) fun err w₂ hw₂ =>
      Or.inl (hw₂.1.trans hw₁.1)
    rw [hw₁.1, hw₁.2] at hw₂
    refine wp_callDb trivial (wp_callWg trivial fun fault _ => ?_)
    have hdb : (w₂.db.removePeer username).2 = (w.db.removePeer username).2 := by rw [hw₂.1]
    cases fault with
    | some err => exact Or.inr hdb
    | none => exact ⟨fun h => (by cases h), hdb, hw₂.2 rfl⟩

/-! ## Whose peer -/

/-- The calls that write about one peer, or about none. -/
def peerCall (username : String) : DaemonOp → Prop
  | .db (.allocatePeer _ other _ _ _) | .db (.removePeer other) => other = username
  | .db (.getPeer _) | .db .getAllPeers => True
  | .db .peersGroupedByOwner | .db .getAllOwnerOctets => True
  | .wg _ | .filter _ => True
  | _ => False

theorem peerCall_of_sparesServerFile {username : String} (op : DaemonOp) (h : sparesServerFile op) :
    peerCall username op := by
  unfold sparesServerFile at h
  split at h <;> trivial

theorem callsOnly_publishPeer {username : String} {peer : Peer} {server : ServerConfig} :
    CallsOnly (peerCall username) (publishPeer peer server) := by
  refine CallsOnly.bind ?_ fun _ => callsOnly_afterAppend.mono peerCall_of_sparesServerFile
  exact CallsOnly.bind (CallsOnly.perform trivial) fun _ => CallsOnly.ofExcept

theorem callsOnly_addPeer {owner : Owner} {username : String} {server : ServerConfig}
    {publicKey : Option String} :
    CallsOnly (peerCall username) (addPeer owner username server publicKey) := by
  refine CallsOnly.bind (callsOnly_peerKeys.mono peerCall_of_sparesServerFile) fun keys => ?_
  refine CallsOnly.bind (CallsOnly.perform rfl) fun allocated => ?_
  refine CallsOnly.bind CallsOnly.ofExcept fun peer => ?_
  refine CallsOnly.bind (callsOnly_publishPeer.catching fun err => ?_) fun _ => .ret
  exact CallsOnly.bind (CallsOnly.perform rfl) fun _ => .raise

theorem callsOnly_rewriteServerConfig {username excluded : String} :
    CallsOnly (peerCall username) (rewriteServerConfig excluded) := by
  refine CallsOnly.bind (CallsOnly.perform trivial) fun content => ?_
  refine CallsOnly.bind CallsOnly.ofExcept fun text => ?_
  refine CallsOnly.bind (CallsOnly.perform trivial) fun peers => ?_
  exact CallsOnly.bind (CallsOnly.perform trivial) fun _ => CallsOnly.ofExcept

theorem callsOnly_removePeer {username : String} :
    CallsOnly (peerCall username) (removePeer username) := by
  refine CallsOnly.bind (CallsOnly.perform trivial) fun found => ?_
  cases found with
  | none => exact .ret
  | some peer =>
    refine CallsOnly.bind (CallsOnly.perform trivial) fun removed => ?_
    refine CallsOnly.bind callsOnly_loggedWg fun _ => ?_
    refine CallsOnly.bind callsOnly_rewriteServerConfig fun _ => ?_
    refine CallsOnly.bind (CallsOnly.perform rfl) fun _ => ?_
    refine CallsOnly.bind (CallsOnly.perform trivial) fun unlinked => ?_
    exact CallsOnly.bind CallsOnly.ofExcept fun _ => .ret

end EdoPlugin
