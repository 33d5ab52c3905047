import EdoPlugin.ContainerAddresses
import EdoPlugin.PeerPrograms
import EdoPlugin.RouteRules

/-!
# Requests about peers

What the three `wg` handlers do to the `peers` table when they return, and the rules for the methods
of the client that call them.  `wg.ensure_peer` leaves a row that is there alone, owner and all.
-/

namespace EdoPlugin

open Interaction

variable {policy : Policy} {env : DaemonEnv} {w w' : World} {userId : Int} {owner : Owner}

/-! ## The handlers -/

theorem wp_loadServerConfig_sameDb {endpoint : String} {port : Nat} :
    wp (daemonSem policy) (fun _ _ => True) (loadServerConfig endpoint port)
      (fun _ w' => w'.db = w.db) w := by
  apply wp_keepsTables
  apply callsOnly_loadServerConfig.mono
  intro op h
  cases op with
  | wg op => trivial
  | _ => exact h.elim

/-- What a `wg.ensure_peer` that returns has found or made. -/
structure EnsuredPeer (userId : Int) (owner : Owner) (w : World) (reply : PeerReply) (peer : Peer)
    (w' : World) : Prop where
  username : peer.username = usernameOf userId
  publicKey : reply.publicKey = peer.publicKey
  assignedIp : reply.assignedIp = peer.ipAddress
  /-- A row that is there stays as it is; otherwise one is made for the owner. -/
  found : w.db.getPeer (usernameOf userId) = some peer ∧ w'.db = w.db ∨
    w.db.getPeer (usernameOf userId) = none ∧ peer.owner = owner ∧
      w.db.firstFreeIp peerCandidateIps = some peer.ipAddress ∧
      w'.db = { w.db with peers := w.db.peers ++ [peer] }

theorem wp_handleWgEnsurePeer : wp (daemonSem policy) (fun _ _ => True)
    (handle env (.wgEnsurePeer userId owner)) (fun out w' => ∀ reply, out = .ok reply →
      ∃ ensured peer, reply = .peer ensured ∧ EnsuredPeer userId owner w ensured peer w') w := by
  apply wp_callDb trivial
  simp only [DbOp.exec]
  cases hpeer : w.db.getPeer (usernameOf userId) with
  | some peer =>
    apply wp_seq wp_loadServerConfig_sameDb
    · rintro server w₁ hdb _ ⟨⟩
      obtain ⟨-, hname⟩ := Db.mem_of_getPeer hpeer
      exact ⟨_, peer, rfl, hname, rfl, rfl, Or.inl ⟨hpeer, hdb⟩⟩
    · intro err w₁ _ reply h
      cases h
  | none =>
    apply wp_seq wp_loadServerConfig_sameDb
    · intro server w₁ hdb
      have hadd : wp (daemonSem policy) (fun _ _ => True)
          (addPeer owner (usernameOf userId) server none) _ w₁ :=
        wp_addPeer (K := fun _ => True) (wp_returning_trivial fun _ _ => trivial)
      apply wp_seq hadd
      · rintro config w₂ ⟨hadded, -⟩
        apply wp_seq wp_rebuildFirewall_sameDb
        · rintro _ w₃ hsame _ ⟨⟩
          refine ⟨_, config.peer, rfl, hadded.username_eq, rfl, rfl, Or.inr ⟨hpeer, hadded.owner_eq, ?_, ?_⟩⟩
          · rw [← hdb]
            exact hadded.address
          · rw [hsame, hadded.db, hdb]
        · intro err w₃ _ reply h
          cases h
      · intro err w₂ _ reply h
        cases h
    · intro err w₁ _ reply h
      cases h

theorem wp_handleWgRenderConfig : wp (daemonSem policy) (fun _ _ => True)
    (handle env (.wgRenderConfig userId)) (fun out w' => ∀ reply, out = .ok reply →
      w'.db = w.db ∧ w.db.getPeer (usernameOf userId) ≠ none) w := by
  apply wp_callDb trivial
  simp only [DbOp.exec]
  cases hpeer : w.db.getPeer (usernameOf userId) with
  | none =>
    intro reply h
    cases h
  | some peer =>
    apply wp_seq wp_loadServerConfig_sameDb
    · intro server w₁ hdb reply _
      exact ⟨hdb, fun h => by cases h⟩
    · intro err w₁ _ reply h
      cases h

theorem Db.removePeer_of_none {db : Db} {username : String} (h : db.getPeer username = none) :
    (db.removePeer username).2 = db := by
  simp only [Db.removePeer, Db.otherPeers_of_none h]

theorem wp_handleWgRemovePeer : wp (daemonSem policy) (fun _ _ => True)
    (handle env (.wgRemovePeer userId)) (fun out w' => ∀ reply, out = .ok reply →
      w'.db = (w.db.removePeer (usernameOf userId)).2) w := by
  apply wp_seq wp_removePeer
  · intro removed w₁ hremoved
    cases removed with
    | false =>
      obtain ⟨hnone, hdb, -⟩ := hremoved
      intro reply _
      rw [hdb, Db.removePeer_of_none hnone]
    | true =>
      obtain ⟨-, hdb, -⟩ := hremoved
      apply wp_seq wp_rebuildFirewall_sameDb
      · intro _ w₂ hsame reply _
        rw [hsame, hdb]
      · intro err w₂ _ reply h
        cases h
  · intro err w₁ _ reply h
    cases h

/-! ## The client -/

/-- A reply comes from a handler that ran to its end. -/
def RpcSem.Runs (rpc : RpcSem) (env : DaemonEnv) : Prop :=
  ∀ w request reply w', rpc w request (.ok reply) w' →
    Ends (daemonSem anyFault) (handle env request) w (.ok reply) w'

theorem runs_unreliable : RpcSem.Runs (Unreliable env) env := by
  intro w request reply w' h
  cases h with
  | answered hhandled =>
    cases hhandled with
    | ok hends => exact hends

theorem runs_served : RpcSem.Runs (Served env) env := fun _ _ _ _ h =>
  runs_unreliable _ _ _ _ h.unreliable

variable {rpc : RpcSem} {α : Type} {Q : Except PluginErr α → Site → Prop} {s : Site}

theorem wp_wgEnsurePeer (hrpc : rpc.Runs env) {f : Except DaemonError PeerReply → Plugin α}
    (hok : ∀ reply peer w, EnsuredPeer userId owner s.daemon reply peer w →
      wp (siteSem rpc) (fun _ _ => True) (f (.ok reply)) Q { s with daemon := w })
    (herror : ∀ err w, rpc s.daemon (.wgEnsurePeer userId owner) (.error err) w →
      wp (siteSem rpc) (fun _ _ => True) (f (.error err)) Q { s with daemon := w }) :
    wp (siteSem rpc) (fun _ _ => True) (DaemonClient.wgEnsurePeer userId owner >>= f) Q s := by
  apply wp_bind.mpr
  apply wp_callRpc trivial
  intro answer w hanswer
  cases answer with
  | error err => exact herror err w hanswer
  | ok reply =>
    obtain ⟨ensured, peer, rfl, hensured⟩ :=
      (hrpc _ _ _ _ hanswer).of_wp wp_handleWgEnsurePeer reply rfl
    exact hok ensured peer w hensured

theorem wp_wgRenderConfig (hrpc : rpc.Runs env) {f : Except DaemonError String → Plugin α}
    (hok : ∀ text w, w.db = s.daemon.db → s.daemon.db.getPeer (usernameOf userId) ≠ none →
      wp (siteSem rpc) (fun _ _ => True) (f (.ok text)) Q { s with daemon := w })
    (hshape : ∀ msg w, w.db = s.daemon.db → Q (.error (.typeError msg)) { s with daemon := w })
    (herror : ∀ err w, rpc s.daemon (.wgRenderConfig userId) (.error err) w →
      wp (siteSem rpc) (fun _ _ => True) (f (.error err)) Q { s with daemon := w }) :
    wp (siteSem rpc) (fun _ _ => True) (DaemonClient.wgRenderConfig userId >>= f) Q s := by
  apply wp_bind.mpr
  apply wp_callRpc trivial
  intro answer w hanswer
  cases answer with
  | error err => exact herror err w hanswer
  | ok reply =>
    obtain ⟨hdb, hpeer⟩ := (hrpc _ _ _ _ hanswer).of_wp wp_handleWgRenderConfig reply rfl
    cases reply with
    | config text => exact hok text w hdb hpeer
    | _ => exact hshape _ w hdb

theorem wp_wgRemovePeer (hrpc : rpc.Runs env) {f : Except DaemonError Unit → Plugin α}
    (hok : ∀ w, w.db = (s.daemon.db.removePeer (usernameOf userId)).2 →
      wp (siteSem rpc) (fun _ _ => True) (f (.ok ())) Q { s with daemon := w })
    (herror : ∀ err w, rpc s.daemon (.wgRemovePeer userId) (.error err) w →
      wp (siteSem rpc) (fun _ _ => True) (f (.error err)) Q { s with daemon := w }) :
    wp (siteSem rpc) (fun _ _ => True) (DaemonClient.wgRemovePeer userId >>= f) Q s := by
  apply wp_bind.mpr
  apply wp_callRpc trivial
  intro answer w hanswer
  cases answer with
  | error err => exact herror err w hanswer
  | ok reply => exact hok w ((hrpc _ _ _ _ hanswer).of_wp wp_handleWgRemovePeer reply rfl)

end EdoPlugin
