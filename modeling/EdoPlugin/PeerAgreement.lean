import EdoPlugin.PeerRequests
import EdoPlugin.ServerFile
import EdoPlugin.SiteHistory

/-!
# The two tables of peers

A revocation marks the plugin's row and deletes the daemon's, so the daemon gives the username and the
address out again while `edo_peers`, whose two columns are unique over all rows, still holds them.
As long as no request makes a peer for a user with a revoked row, or at the address of one, the rows
that are not revoked are the daemon's table.
-/

namespace EdoPlugin

open Interaction

/-! ## Agreement -/

/-- User, key and address of the rows that are not revoked. -/
def PluginDb.knownPeers (db : PluginDb) : List (String × String × IPv4Address) :=
  (db.peers.filter fun row => row.revoked = false).map fun row =>
    (usernameOf row.userId, row.publicKey, row.assignedIp)

def Db.ownPeers (db : Db) : List (String × String × IPv4Address) :=
  db.peers.map fun peer => (peer.username, peer.publicKey, peer.ipAddress)

def PeersAgree (plugin : PluginDb) (db : Db) : Prop := plugin.knownPeers = db.ownPeers

variable {plugin view : PluginDb} {db db' : Db} {userId : Int} {owner : Owner}

/-- The plugin knows of no peer of the user exactly when the daemon has none. -/
theorem PeersAgree.activePeer_iff (h : PeersAgree plugin db) :
    plugin.activePeer userId = none ↔ db.getPeer (usernameOf userId) = none := by
  have hknown : usernameOf userId ∈ plugin.knownPeers.map Prod.fst ↔
      usernameOf userId ∈ db.ownPeers.map Prod.fst := by rw [h]
  simp only [PluginDb.knownPeers, Db.ownPeers, List.map_map, List.mem_map, List.mem_filter,
    Function.comp_apply, decide_eq_true_eq] at hknown
  rw [← not_iff_not, PluginDb.activePeer, Db.getPeer_eq_none_iff, List.find?_eq_none]
  push Not
  constructor
  · rintro ⟨row, hrow, hactive⟩
    obtain ⟨huser, hrevoked⟩ := of_decide_eq_true hactive
    obtain ⟨peer, hpeer, hname⟩ := hknown.mp ⟨row, ⟨hrow, hrevoked⟩, by rw [huser]⟩
    exact ⟨peer, hpeer, hname⟩
  · rintro ⟨peer, hpeer, hname⟩
    obtain ⟨row, ⟨hrow, hrevoked⟩, huser⟩ := hknown.mpr ⟨peer, hpeer, hname⟩
    exact ⟨row, hrow, decide_eq_true ⟨usernameOf_injective huser, hrevoked⟩⟩

/-- An address that no peer of the daemon has is no known peer's. -/
theorem PeersAgree.assignedIp_ne (h : PeersAgree plugin db) {row : EdoPeer} {ip : IPv4Address}
    (hrow : row ∈ plugin.peers) (hrevoked : row.revoked = false)
    (hfree : ∀ peer ∈ db.peers, peer.ipAddress ≠ ip) : row.assignedIp ≠ ip := by
  have hmem : (usernameOf row.userId, row.publicKey, row.assignedIp) ∈ plugin.knownPeers :=
    List.mem_map.mpr ⟨row, List.mem_filter.mpr ⟨hrow, decide_eq_true hrevoked⟩, rfl⟩
  rw [h] at hmem
  obtain ⟨peer, hpeer, heq⟩ := List.mem_map.mp hmem
  simp only [Prod.mk.injEq] at heq
  rw [← heq.2.2]
  exact hfree peer hpeer

/-! ## What the daemon hands out next -/

/-- The next addresses, so many, when these are in use. -/
def nextPeerIps (used : List IPv4Address) : Nat → List IPv4Address
  | 0 => []
  | count + 1 =>
    match peerCandidateIps.find? fun ip => !used.contains ip with
    | none => []
    | some ip => ip :: nextPeerIps (used ++ [ip]) count

theorem nextPeerIps_subset {used : List IPv4Address} {count count' : Nat} (h : count ≤ count') :
    nextPeerIps used count ⊆ nextPeerIps used count' := by
  induction count generalizing used count' with
  | zero =>
    intro ip hip
    cases hip
  | succ count ih =>
    cases count' with
    | zero => omega
    | succ count' =>
      simp only [nextPeerIps]
      cases peerCandidateIps.find? fun ip => !used.contains ip with
      | none => exact List.Subset.refl _
      | some ip => exact List.cons_subset_cons ip (ih (Nat.le_of_succ_le_succ h))

theorem Db.firstFreeIp_eq (db : Db) : db.firstFreeIp peerCandidateIps =
    peerCandidateIps.find? fun ip => !(db.peers.map Peer.ipAddress).contains ip := by
  unfold firstFreeIp
  congr 1
  funext ip
  rw [List.contains_eq_any_beq, List.any_map]
  congr 2
  funext peer
  rw [Bool.eq_iff_iff, decide_eq_true_eq, Function.comp_apply, beq_iff_eq, eq_comm]

theorem Db.firstFreeIp_free {ip : IPv4Address} (h : db.firstFreeIp peerCandidateIps = some ip) :
    ∀ peer ∈ db.peers, peer.ipAddress ≠ ip := by
  have hfree : (!(db.peers.any fun p => p.ipAddress = ip)) = true :=
    List.find?_some (p := fun ip => !(db.peers.any fun p => p.ipAddress = ip)) h
  intro peer hpeer hsame
  rw [Bool.not_eq_true', List.any_eq_false] at hfree
  exact hfree peer hpeer (decide_eq_true hsame)

/-! ## Who gets a peer, and where -/

/-- The users among these whom a request makes a peer for. -/
def PluginDb.peerless (db : PluginDb) (users : List User) : List User :=
  users.filter fun user => db.activePeer user.id = none ∧ (db.resolveOwnerForUser user).isSome

/-- The ids of the users a request makes a peer for. -/
def PluginDb.provisions (db : PluginDb) : RouteCall → List Int
  | .downloadWgConfig caller =>
    match db.currentUser caller, db.resolveOwner caller with
    | some user, some _ => if db.activePeer user.id = none then [user.id] else []
    | _, _ => []
  | .wgBulkGenerate =>
    (db.peerless (db.users.filter fun user => user.banned = false ∧ user.hidden = false)).map User.id
  | _ => []

/-- No revoked row is of one of these users, or has one of the addresses they would get. -/
def Unclaimed (plugin : PluginDb) (db : Db) (userIds : List Int) : Prop :=
  ∀ row ∈ plugin.peers, row.revoked = true → row.userId ∉ userIds ∧
    row.assignedIp ∉ nextPeerIps (db.peers.map Peer.ipAddress) userIds.length

/-! ## A new peer -/

/-- The daemon has made a peer for the user, and the plugin a row of it. -/
structure Provisioned (userId : Int) (plugin : PluginDb) (db : Db) (plugin' : PluginDb) (db' : Db) :
    Prop where
  row : ∃ row, row.userId = userId ∧ row.revoked = false ∧
    plugin' = { plugin with peers := plugin.peers ++ [row] }
  ips : ∃ ip, db.firstFreeIp peerCandidateIps = some ip ∧
    db'.peers.map Peer.ipAddress = db.peers.map Peer.ipAddress ++ [ip]
  agree : PeersAgree plugin' db'

/-- **A new peer** for a user without one, whose address nobody claims. -/
theorem PeersAgree.provision {w w' : World} {reply : PeerReply} {peer : Peer} {userIds : List Int}
    (h : PeersAgree plugin w.db) (hnone : plugin.activePeer userId = none)
    (hunclaimed : Unclaimed plugin w.db (userId :: userIds))
    (hensured : EnsuredPeer userId owner w reply peer w') :
    ∃ plugin', plugin.insertPeer (UserRoutes.peerRow userId owner reply) = .ok plugin' ∧
      Provisioned userId plugin w.db plugin' w'.db := by
  have hget := h.activePeer_iff.mp hnone
  rcases hensured.found with ⟨hfound, -⟩ | ⟨-, -, hip, hdb⟩
  · rw [hget] at hfound
    cases hfound
  have hnext : peer.ipAddress ∈
      nextPeerIps (w.db.peers.map Peer.ipAddress) (userId :: userIds).length := by
    rw [Db.firstFreeIp_eq] at hip
    rw [List.length_cons, nextPeerIps, hip]
    exact List.mem_cons_self
  have husers : ∀ row ∈ plugin.peers, row.userId ≠ userId := by
    intro row hrow huser
    cases hrevoked : row.revoked with
    | true => exact (hunclaimed row hrow hrevoked).1 (huser ▸ List.mem_cons_self)
    | false => exact List.find?_eq_none.mp hnone row hrow (decide_eq_true ⟨huser, hrevoked⟩)
  have hips : ∀ row ∈ plugin.peers, row.assignedIp ≠ peer.ipAddress := by
    intro row hrow hsame
    cases hrevoked : row.revoked with
    | true => exact (hunclaimed row hrow hrevoked).2 (hsame ▸ hnext)
    | false => exact h.assignedIp_ne hrow hrevoked (Db.firstFreeIp_free hip) hsame
  refine ⟨{ plugin with peers := plugin.peers ++ [UserRoutes.peerRow userId owner reply] }, ?_, ?_⟩
  · refine (if_neg ?_).trans (if_neg ?_)
    · rw [Bool.not_eq_true, List.any_eq_false]
      exact fun row hrow hsame => husers row hrow (of_decide_eq_true hsame)
    · rw [Bool.not_eq_true, List.any_eq_false]
      exact fun row hrow hsame =>
        hips row hrow ((of_decide_eq_true hsame).trans hensured.assignedIp)
  · refine ⟨⟨_, rfl, rfl, rfl⟩, ⟨peer.ipAddress, hip, by rw [hdb, List.map_append]; rfl⟩, ?_⟩
    have hsame : plugin.knownPeers = w.db.ownPeers := h
    unfold PeersAgree PluginDb.knownPeers Db.ownPeers
    rw [hdb, List.filter_append, List.map_append, List.map_append, ← Db.ownPeers, ← hsame]
    simp [PluginDb.knownPeers, UserRoutes.peerRow, hensured.username, hensured.publicKey,
      hensured.assignedIp]

theorem PluginDb.activePeer_append {row : EdoPeer} {other : Int}
    (h : ({ plugin with peers := plugin.peers ++ [row] } : PluginDb).activePeer other = none) :
    plugin.activePeer other = none := by
  rw [activePeer, List.find?_append, Option.or_eq_none_iff] at h
  exact h.1

/-- The other users of the request still get their peers at addresses nobody claims. -/
theorem Provisioned.unclaimed {plugin' : PluginDb} {users : List User}
    (h : Provisioned userId plugin db plugin' db')
    (hunclaimed : Unclaimed plugin db (userId :: (plugin.peerless users).map User.id)) :
    Unclaimed plugin' db' ((plugin'.peerless users).map User.id) := by
  obtain ⟨row, -, hactive, rfl⟩ := h.row
  obtain ⟨ip, hip, hips⟩ := h.ips
  have hsublist : (PluginDb.peerless { plugin with peers := plugin.peers ++ [row] } users).Sublist
      (plugin.peerless users) := by
    apply List.monotone_filter_right
    intro user huser
    obtain ⟨hnone, howner⟩ := of_decide_eq_true huser
    exact decide_eq_true ⟨PluginDb.activePeer_append hnone, howner⟩
  intro other hother hrevoked
  rcases List.mem_append.mp hother with hold | hnew
  · obtain ⟨huser, haddress⟩ := hunclaimed other hold hrevoked
    constructor
    · intro hmem
      exact huser (List.mem_cons_of_mem _ ((hsublist.map User.id).subset hmem))
    · intro hmem
      apply haddress
      rw [Db.firstFreeIp_eq] at hip
      rw [List.length_cons, nextPeerIps, hip]
      rw [hips] at hmem
      exact List.mem_cons_of_mem _ (nextPeerIps_subset (hsublist.map User.id).length_le hmem)
  · rw [List.mem_singleton.mp hnew, hactive] at hrevoked
    cases hrevoked

/-! ## The requests -/

variable {env : DaemonEnv} {compare : FlagComparison} {s s' : Site} {α : Type}

/-- The request ends without an error of the database, and the tables agree. -/
def AgreesAfter {α : Type} (out : Except PluginErr α) (s' : Site) : Prop :=
  (∀ err, out ≠ .error (.flush err)) ∧ PeersAgree s'.plugin s'.daemon.db

theorem wp_flush {rpc : RpcSem} {writes : List Write} {f : PluginDb → Plugin α}
    {Q : Except PluginErr α → Site → Prop} (h : s.plugin.applyAll writes = .ok view)
    (hf : wp (siteSem rpc) (fun _ _ => True) (f view) Q s) :
    wp (siteSem rpc) (fun _ _ => True) (flush writes >>= f) Q s := by
  apply wp_bind.mpr
  refine ⟨trivial, ?_⟩
  rintro _ _ ⟨rfl, rfl⟩
  rw [h]
  exact hf

theorem PluginDb.applyAll_concat {writes : List Write} {write : Write}
    (h : plugin.applyAll writes = .ok view) :
    plugin.applyAll (writes ++ [write]) = view.apply write := by
  induction writes generalizing plugin with
  | nil =>
    cases h
    exact applyAll_singleton _ _
  | cons first writes ih =>
    simp only [applyAll] at h
    simp only [List.cons_append, applyAll]
    cases hfirst : plugin.apply first with
    | error err =>
      rw [hfirst] at h
      cases h
    | ok next =>
      rw [hfirst] at h
      exact ih h

theorem not_served_error {w w' : World} {request : Request} {err : DaemonError} :
    ¬ Served env w request (.error err) w' := by
  rintro ⟨⟩

theorem wp_renderConfig_agrees (h : PeersAgree s.plugin s.daemon.db) :
    wp (siteSem (Served env)) (fun _ _ => True) (UserRoutes.renderConfig userId) AgreesAfter s := by
  apply wp_wgRenderConfig runs_served
  · intro text w hdb _
    apply wp_select trivial
    rw [← hdb] at h
    cases s.plugin.getUser userId with
    | none => exact ⟨fun _ herr => (by cases herr), h⟩
    | some user => exact ⟨fun _ herr => (by cases herr), h⟩
  · intro msg w hdb
    rw [← hdb] at h
    exact ⟨fun _ herr => (by cases herr), h⟩
  · exact fun err w herr => absurd herr not_served_error

/-- Nothing changes, and the request ends without an error of the database. -/
theorem AgreesAfter.ok {value : α} (h : PeersAgree s.plugin s.daemon.db) :
    AgreesAfter (.ok value : Except PluginErr α) s :=
  ⟨fun _ herr => (by cases herr), h⟩

theorem currentUser_of_resolveOwner {caller : Option Int}
    (h : plugin.resolveOwner caller = some owner) : ∃ user, plugin.currentUser caller = some user := by
  obtain ⟨user, huser, -⟩ := Option.bind_eq_some_iff.mp h
  exact ⟨user, huser⟩

theorem wp_downloadWgConfig_agrees {caller : Option Int} (h : PeersAgree s.plugin s.daemon.db)
    (hunclaimed : Unclaimed s.plugin s.daemon.db (s.plugin.provisions (.downloadWgConfig caller))) :
    wp (siteSem (Served env)) (fun _ _ => True) (UserRoutes.downloadWgConfig caller) AgreesAfter s := by
  apply wp_ownerRequired
  · exact fun _ => .ok h
  intro owner howner
  obtain ⟨user, huser⟩ := currentUser_of_resolveOwner howner
  refine wp_bind.mpr (wp_select trivial ?_)
  rw [huser]
  refine wp_resolvedOwner howner (wp_select trivial ?_)
  cases hactive : s.plugin.activePeer user.id with
  | some row => exact wp_renderConfig_agrees h
  | none =>
    have hprovisions : s.plugin.provisions (.downloadWgConfig caller) = [user.id] := by
      simp [PluginDb.provisions, huser, howner, hactive]
    rw [hprovisions] at hunclaimed
    apply wp_wgEnsurePeer runs_served
    · intro reply peer w hensured
      obtain ⟨plugin', hinsert, hprovisioned⟩ := h.provision hactive hunclaimed hensured
      apply wp_commit trivial
      · intro db hdb
        rw [PluginDb.applyAll_singleton, PluginDb.apply] at hdb
        obtain rfl : plugin' = db := Except.ok.inj (hinsert.symm.trans hdb)
        exact wp_renderConfig_agrees hprovisioned.agree
      · intro err herr
        rw [PluginDb.applyAll_singleton, PluginDb.apply] at herr
        cases hinsert.symm.trans herr
    · exact fun err w herr => absurd herr not_served_error

theorem peerless_cons_skipped {user : User} {users : List User}
    (h : ¬ (plugin.activePeer user.id = none ∧ (plugin.resolveOwnerForUser user).isSome)) :
    plugin.peerless (user :: users) = plugin.peerless users := by
  rw [PluginDb.peerless, List.filter_cons_of_neg (by simpa using h)]
  rfl

/-- One session holds the new rows until the end; with them the tables agree after every round. -/
theorem wp_generateEach_agrees {users : List User} {added : List Write}
    {counts : AdminRoutes.BulkCounts} (hview : s.plugin.applyAll added = .ok view)
    (h : PeersAgree view s.daemon.db)
    (hunclaimed : Unclaimed view s.daemon.db ((view.peerless users).map User.id)) :
    wp (siteSem (Served env)) (fun _ _ => True) (AdminRoutes.generateEach users added counts)
      AgreesAfter s := by
  induction users generalizing s added counts view with
  | nil =>
    apply wp_commit trivial
    · intro db hdb
      rw [hview] at hdb
      cases hdb
      exact .ok h
    · intro err herr
      rw [hview] at herr
      cases herr
  | cons user users ih =>
    apply wp_flush hview
    cases hactive : view.activePeer user.id with
    | some row =>
      rw [peerless_cons_skipped (by simp [hactive])] at hunclaimed
      exact ih hview h hunclaimed
    | none =>
      cases howner : view.resolveOwnerForUser user with
      | none =>
        rw [peerless_cons_skipped (by simp [howner])] at hunclaimed
        exact ih hview h hunclaimed
      | some owner =>
        have hpeerless : view.peerless (user :: users) = user :: view.peerless users :=
          List.filter_cons_of_pos (decide_eq_true ⟨hactive, by simp [howner]⟩)
        rw [hpeerless, List.map_cons] at hunclaimed
        apply wp_wgEnsurePeer runs_served
        · intro reply peer w hensured
          obtain ⟨view', hinsert, hprovisioned⟩ := h.provision hactive hunclaimed hensured
          exact ih ((PluginDb.applyAll_concat hview).trans hinsert) hprovisioned.agree
            (hprovisioned.unclaimed hunclaimed)
        · exact fun err w herr => absurd herr not_served_error

theorem wp_wgBulkGenerate_agrees (h : PeersAgree s.plugin s.daemon.db)
    (hunclaimed : Unclaimed s.plugin s.daemon.db (s.plugin.provisions .wgBulkGenerate)) :
    wp (siteSem (Served env)) (fun _ _ => True) AdminRoutes.wgBulkGenerate AgreesAfter s := by
  apply wp_select trivial
  exact wp_generateEach_agrees rfl h hunclaimed

theorem PluginDb.mem_of_activePeer {row : EdoPeer} (h : plugin.activePeer userId = some row) :
    row ∈ plugin.peers ∧ row.userId = userId ∧ row.revoked = false := by
  rw [activePeer] at h
  have hfound := List.find?_some h
  exact ⟨List.mem_of_find?_eq_some h, of_decide_eq_true hfound⟩

theorem Db.ownPeers_removePeer {username : String} :
    (db.removePeer username).2.ownPeers = db.ownPeers.filter fun known => known.1 ≠ username := by
  rw [ownPeers, ownPeers, List.filter_map]
  rfl

theorem PluginDb.knownPeers_revokePeer (h : plugin.revokePeer userId = .ok view) :
    view.knownPeers = plugin.knownPeers.filter fun known => known.1 ≠ usernameOf userId := by
  rw [revokePeer] at h
  split at h
  · cases h
    have hkept : ∀ row : EdoPeer,
        (decide ((if row.userId = userId then { row with revoked := true } else row).revoked = false)) =
          (decide (usernameOf row.userId ≠ usernameOf userId) && decide (row.revoked = false)) := by
      intro row
      by_cases huser : row.userId = userId
      · simp [huser]
      · have hname : usernameOf row.userId ≠ usernameOf userId :=
          fun hsame => huser (usernameOf_injective hsame)
        simp [huser, hname]
    simp only [knownPeers, List.filter_map, List.map_map, List.filter_filter, Function.comp_def, hkept]
    apply List.map_congr_left
    intro row hrow
    have hother : row.userId ≠ userId := by
      intro huser
      simp [huser] at hrow
    simp only [hother, if_false]
  · cases h

/-- The revoked row and the daemon's go together. -/
theorem PeersAgree.revoke (h : PeersAgree plugin db) (hrevoked : plugin.revokePeer userId = .ok view) :
    PeersAgree view (db.removePeer (usernameOf userId)).2 := by
  rw [PeersAgree, PluginDb.knownPeers_revokePeer hrevoked, Db.ownPeers_removePeer, h]

theorem wp_wgRevokePeer_agrees (h : PeersAgree s.plugin s.daemon.db) :
    wp (siteSem (Served env)) (fun _ _ => True) (AdminRoutes.wgRevokePeer userId) AgreesAfter s := by
  apply wp_select trivial
  cases hactive : s.plugin.activePeer userId with
  | none => exact .ok h
  | some row =>
    apply wp_wgRemovePeer runs_served
    · intro w hdb
      apply wp_commit trivial
      · intro db hcommit
        rw [PluginDb.applyAll_singleton, PluginDb.apply] at hcommit
        have hrevoked := h.revoke hcommit
        rw [← hdb] at hrevoked
        exact .ok hrevoked
      · intro err herr
        rw [PluginDb.applyAll_singleton, PluginDb.apply, PluginDb.revokePeer, if_pos] at herr
        · cases herr
        · obtain ⟨hmem, huser, -⟩ := PluginDb.mem_of_activePeer hactive
          exact List.any_eq_true.mpr ⟨row, hmem, decide_eq_true huser⟩
    · exact fun err w herr => absurd herr not_served_error

/-! ## Runs -/

/-- The operations that change peers, and what goes on around them. -/
def SiteEvent.concernsPeers : SiteEvent → Bool
  | .route (.downloadWgConfig _) | .route .wgBulkGenerate | .route (.wgRevokePeer _) => true
  | .ctfd _ | .drift => true
  | _ => false

/-- The request makes no peer that a revoked row stands in the way of. -/
def LeavesRevoked (s : Site) : SiteEvent → Prop
  | .route call => Unclaimed s.plugin s.daemon.db (s.plugin.provisions call)
  | _ => True

theorem PeersAgree.change (h : PeersAgree plugin db) (change : CtfdChange) :
    PeersAgree (plugin.change change) db := by
  cases change <;> exact h

/-- **One request**: it ends without an error of the database, and the tables agree after it. -/
theorem PeersAgree.route {call : RouteCall} {out : Except PluginErr Response}
    (h : PeersAgree s.plugin s.daemon.db) (hcall : SiteEvent.concernsPeers (.route call))
    (hleaves : LeavesRevoked s (.route call))
    (hends : Ends (siteSem (Served env)) (call.prog compare) s out s') : AgreesAfter out s' := by
  cases call with
  | downloadWgConfig caller => exact hends.of_wp (wp_downloadWgConfig_agrees h hleaves)
  | wgBulkGenerate => exact hends.of_wp (wp_wgBulkGenerate_agrees h hleaves)
  | wgRevokePeer userId => exact hends.of_wp (wp_wgRevokePeer_agrees h)
  | _ => cases hcall

theorem SiteRun.peersAgree {s₀ s : Site} (h₀ : PeersAgree s₀.plugin s₀.daemon.db)
    (hrun : SiteRun (Served env) compare
      (fun s event => event.concernsPeers ∧ LeavesRevoked s event) s₀ s) :
    PeersAgree s.plugin s.daemon.db := by
  induction hrun with
  | start => exact h₀
  | step _ hok hstep ih =>
    cases hstep with
    | route hends => exact (ih.route hok.1 hok.2 hends).2
    | ctfd => exact ih.change _
    | drift => exact ih
    | sweep | tick => cases hok.1

/-- **Plugin and daemon agree on the peers**, and no request ends in an error of the database, while
    no request makes a peer for a user with a revoked row or at the address of one. -/
theorem peers_agree (env : DaemonEnv) (compare : FlagComparison) (s₀ s : Site)
    (hagree : PeersAgree s₀.plugin s₀.daemon.db)
    (hrun : SiteRun (Served env) compare
      (fun s event => event.concernsPeers ∧ LeavesRevoked s event) s₀ s) :
    PeersAgree s.plugin s.daemon.db ∧
      ∀ call out s', SiteEvent.concernsPeers (.route call) → LeavesRevoked s (.route call) →
        Ends (siteSem (Served env)) (RouteCall.prog compare call) s out s' →
        ∀ err, out ≠ .error (.flush err) := by
  have h := SiteRun.peersAgree hagree hrun
  exact ⟨h, fun _ _ _ hcall hleaves hends => (h.route hcall hleaves hends).1⟩

/-! ## A revocation and what follows it -/

/-- Two participants, on a site with a server file and no peers. -/
def pairSite : Site where
  plugin := { PluginDb.empty with
    users := [⟨1, "alice", none, false, false⟩, ⟨2, "bob", none, false, false⟩] }
  buckets := fun _ => []
  daemon := { freshHost with wg := ⟨initServerContents 51820 "server", [], []⟩ }

def downloads (userId : Int) : SiteMove :=
  .routed (.downloadWgConfig (some userId)) (quietSiteChoice 0)

def revokes (userId : Int) : SiteMove := .routed (.wgRevokePeer userId) (quietSiteChoice 0)

def unclaimed (plugin : PluginDb) (db : Db) (userIds : List Int) : Bool :=
  plugin.peers.all fun row => !row.revoked || (!userIds.contains row.userId &&
    !(nextPeerIps (db.peers.map Peer.ipAddress) userIds.length).contains row.assignedIp)

theorem of_unclaimed {userIds : List Int} (h : unclaimed plugin db userIds = true) :
    Unclaimed plugin db userIds := by
  intro row hrow hrevoked
  simpa [hrevoked] using List.all_eq_true.mp h row hrow

def leavesRevoked (s : Site) : SiteEvent → Bool
  | .route call => SiteEvent.concernsPeers (.route call) &&
    unclaimed s.plugin s.daemon.db (s.plugin.provisions call)
  | event => event.concernsPeers

theorem of_leavesRevoked (s : Site) (event : SiteEvent) (h : leavesRevoked s event = true) :
    event.concernsPeers ∧ LeavesRevoked s event := by
  cases event with
  | route call =>
    obtain ⟨hconcerns, hunclaimed⟩ := Bool.and_eq_true_iff.mp h
    exact ⟨hconcerns, of_unclaimed hunclaimed⟩
  | _ => exact ⟨h, trivial⟩

/-- Some requests, and a download after them. -/
def downloadedAfter (check : Site → SiteEvent → Bool) (moves : List SiteMove) :
    Option (Site × Except PluginErr Response × Site) :=
  (siteHistory (execServed DaemonEnv.default) sameContent check moves pairSite).bind fun s =>
    ((siteMachine (execServed DaemonEnv.default)).run (quietSiteChoice 0)
      (UserRoutes.downloadWgConfig (some 1)) s).map fun result => (s, result.2)

theorem ends_downloadedAfter {check : Site → SiteEvent → Bool} {ok : Site → SiteEvent → Prop}
    {moves : List SiteMove} {out : Except PluginErr Response}
    (hok : ∀ s event, check s event = true → ok s event)
    (h : downloadedAfter check moves = some (s, out, s')) :
    SiteRun (Served DaemonEnv.default) sameContent ok pairSite s ∧
      Ends (siteSem (Served DaemonEnv.default)) (UserRoutes.downloadWgConfig (some 1)) s out s' := by
  obtain ⟨s₁, hhistory, hdownload⟩ := Option.bind_eq_some_iff.mp h
  obtain ⟨⟨trace, out', last⟩, hrun, heq⟩ := Option.map_eq_some_iff.mp hdownload
  cases heq
  have hrpc := executes_served DaemonEnv.default
  exact ⟨.of_siteHistory hrpc hok hhistory, ends_of_siteRun hrpc hrun⟩

/-- The two of them download, the second is revoked, and the first downloads again. -/
theorem downloadedAfter_other :
    (downloadedAfter leavesRevoked [downloads 1, downloads 2, revokes 2]).any (fun result =>
      leavesRevoked result.1 (.route (.downloadWgConfig (some 1))) &&
        result.1.plugin.knownPeers.length = 1) = true := by
  decide +kernel

theorem peers_agree_other : ∃ s out s',
    downloadedAfter leavesRevoked [downloads 1, downloads 2, revokes 2] = some (s, out, s') ∧
      PeersAgree s.plugin s.daemon.db ∧ ∀ err, out ≠ .error (.flush err) := by
  obtain ⟨⟨s, out, s'⟩, hrun, hdone⟩ := (Option.any_eq_true _ _).mp downloadedAfter_other
  obtain ⟨hleaves, -⟩ := Bool.and_eq_true_iff.mp hdone
  obtain ⟨hreached, hends⟩ := ends_downloadedAfter of_leavesRevoked hrun
  obtain ⟨hagree, hsafe⟩ := peers_agree DaemonEnv.default sameContent pairSite s rfl hreached
  exact ⟨s, out, s', hrun, hagree,
    hsafe (.downloadWgConfig (some 1)) out s' rfl (of_leavesRevoked _ _ hleaves).2 hends⟩

theorem downloadedAfter_own : (downloadedAfter (fun _ => SiteEvent.concernsPeers)
    [downloads 1, revokes 1]).any (fun result =>
      match result.2.1 with
      | .error (.flush (.integrityError .peerUserId)) => true
      | _ => false) = true := by
  decide +kernel

/-- Whoever was revoked cannot download again. -/
theorem not_peers_agree :
    ¬ ∀ (env : DaemonEnv) (compare : FlagComparison) (s₀ s : Site), s₀.plugin.peers = [] →
      s₀.daemon.db.peers = [] →
      SiteRun (Served env) compare (fun _ event => event.concernsPeers) s₀ s →
      PeersAgree s.plugin s.daemon.db ∧
        ∀ call out s', SiteEvent.concernsPeers (.route call) →
          Ends (siteSem (Served env)) (RouteCall.prog compare call) s out s' →
          ∀ err, out ≠ .error (.flush err) := by
  intro hall
  obtain ⟨⟨s, out, s'⟩, hrun, hdone⟩ := (Option.any_eq_true _ _).mp downloadedAfter_own
  obtain ⟨hreached, hends⟩ := ends_downloadedAfter (fun _ _ h => h) hrun
  obtain ⟨-, hsafe⟩ := hall DaemonEnv.default sameContent pairSite s rfl rfl hreached
  split at hdone
  · rename_i hout
    exact hsafe (.downloadWgConfig (some 1)) out s' rfl hends _ hout
  · cases hdone

end EdoPlugin
