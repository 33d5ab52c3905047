import EdoPlugin.PeerRequests
import EdoPlugin.ServerFile
import EdoPlugin.SiteHistory

/-!
# VPN access and team membership

The owner of a peer is written once, when the daemon makes its row.  A download asks the daemon for
a peer only if the plugin has none, and `wg.ensure_peer` returns the row it finds; so the access of
a participant follows them to another team exactly when there was no row yet.
-/

namespace EdoPlugin

open Interaction

variable {env : DaemonEnv} {rpc : RpcSem} {compare : FlagComparison} {s s' : Site} {w w' : World}

/-! ## The constraints of the daemon's stores over a run -/

theorem World.WellFormed.unreliable {request : Request} {answer : Except DaemonError Reply}
    (h : w.WellFormed) (hrpc : Unreliable env w request answer w') : w'.WellFormed := by
  have hhandled : ∀ {answer}, Handled anyFault env w request answer w' → w'.WellFormed := by
    intro answer hhandled
    cases hhandled with
    | ok hends | error hends => exact h.ends hends
  cases hrpc with
  | answered hanswered => exact hhandled hanswered
  | undelivered => exact h
  | replyLost hanswered => exact hhandled hanswered

theorem World.WellFormed.siteSem {op : SiteOp} {res : op.Res} (h : s.daemon.WellFormed)
    (hsem : siteSem (Unreliable env) s op res s') : s'.daemon.WellFormed := by
  cases op with
  | rpc request => exact h.unreliable hsem.1
  | utcnow =>
    cases hsem
    exact h
  | rateLimit key limit window =>
    obtain ⟨now, -, rfl⟩ := hsem
    exact h
  | _ =>
    rw [hsem.2]
    exact h

theorem World.WellFormed.site_ends {α : Type} {p : Plugin α} {out : Except PluginErr α}
    (h : s.daemon.WellFormed) (hends : Ends (EdoPlugin.siteSem (Unreliable env)) p s out s') :
    s'.daemon.WellFormed := by
  refine hends.of_wp (CallsOnly.preserves (I := fun s => s.daemon.WellFormed) (.always p) ?_ h)
  intro _ _ _ _ _ h hsem
  exact h.siteSem hsem

theorem SiteRun.wellFormed {ok : Site → SiteEvent → Prop} (h : s.daemon.WellFormed)
    (hrun : SiteRun (Unreliable env) compare ok s s') : s'.daemon.WellFormed := by
  induction hrun with
  | start => exact h
  | step _ _ hstep ih =>
    cases hstep with
    | route hends | sweep hends | tick hends => exact ih.site_ends hends
    | ctfd => exact ih
    | drift hdrift => exact ⟨ih.db, ih.docker.drift hdrift⟩

/-! ## Access -/

/-- The user's peer belongs to the owner, and of the container subnets the rules of the tables open
    to it those of the owner and no others. -/
structure Db.AccessFollows (db : Db) (userId : Int) (owner : Owner) : Prop where
  tagged : ∃ peer, db.getPeer (usernameOf userId) = some peer ∧ peer.owner = owner
  reaches : ∀ peer, db.getPeer (usernameOf userId) = some peer → ∀ row ∈ db.ownerOctets,
    (∀ rule ∈ acceptPair peer.ipAddress row.octet, rule ∈ db.accepts) ↔ row.owner = owner

/-- The rules of the tables open the subnet of a row to a peer of the same owner only. -/
theorem Db.WellFormed.accepts_iff {db : Db} (h : db.WellFormed) {peer : Peer} {row : OwnerOctet}
    (hpeer : peer ∈ db.peers) (hrow : row ∈ db.ownerOctets) :
    (∀ rule ∈ acceptPair peer.ipAddress row.octet, rule ∈ db.accepts) ↔ row.owner = peer.owner := by
  constructor
  · intro hall
    have hfirst : (⟨some (hostNetwork peer.ipAddress), some (ownerSubnet row.octet), none, [],
        .accept⟩ : Rule) ∈ acceptPair peer.ipAddress row.octet := List.mem_cons_self
    obtain ⟨peer', hpeer', row', hrow', howner, hrule⟩ := Db.mem_accepts.mp (hall _ hfirst)
    obtain ⟨hip, hoctet⟩ := acceptPair_inj hfirst hrule
    rw [Db.eq_of_nodup_map h.peerIps hpeer hpeer' hip, Db.eq_of_nodup_map h.octets hrow hrow' hoctet]
    exact howner
  · intro howner rule hrule
    exact Db.mem_accepts.mpr ⟨peer, hpeer, row, hrow, howner, hrule⟩

theorem Db.WellFormed.accessFollows_iff {db : Db} (h : db.WellFormed) {userId : Int} {owner : Owner} :
    db.AccessFollows userId owner ↔
      ∃ peer, db.getPeer (usernameOf userId) = some peer ∧ peer.owner = owner := by
  refine ⟨fun hfollows => hfollows.tagged, ?_⟩
  rintro ⟨peer, hpeer, rfl⟩
  refine ⟨⟨peer, hpeer, rfl⟩, ?_⟩
  intro other hother row hrow
  rw [hpeer, Option.some.injEq] at hother
  rw [← hother]
  exact h.accepts_iff (Db.mem_of_getPeer hpeer).1 hrow

/-! ## Downloads -/

theorem wp_renderConfig_sameDb (hrpc : rpc.Runs env) {userId : Int} :
    wp (siteSem rpc) (fun _ _ => True) (UserRoutes.renderConfig userId)
      (fun out s' => ∀ filename text, out = .ok (.config filename text) →
        s'.daemon.db = s.daemon.db ∧ s.daemon.db.getPeer (usernameOf userId) ≠ none) s := by
  apply wp_wgRenderConfig hrpc
  · intro text w hdb hpeer
    apply wp_select trivial
    cases s.plugin.getUser userId with
    | none =>
      intro _ _ h
      cases h
    | some user => exact fun _ _ _ => ⟨hdb, hpeer⟩
  · intro msg w _ _ _ h
    cases h
  · intro err w _ _ _ h
    cases h

/-- After a download that succeeds the user's row is the one that was there, or one made for the
    owner the request resolved. -/
theorem wp_downloadWgConfig_owner (hrpc : rpc.Runs env) {caller : Option Int} {user : User}
    {owner : Owner} (huser : s.plugin.currentUser caller = some user)
    (howner : s.plugin.resolveOwner caller = some owner) :
    wp (siteSem rpc) (fun _ _ => True) (UserRoutes.downloadWgConfig caller)
      (fun out s' => ∀ filename text, out = .ok (.config filename text) →
        (∃ peer, s.daemon.db.getPeer (usernameOf user.id) = some peer ∧
          s'.daemon.db.getPeer (usernameOf user.id) = some peer) ∨
        s.daemon.db.getPeer (usernameOf user.id) = none ∧
          ∃ peer, s'.daemon.db.getPeer (usernameOf user.id) = some peer ∧ peer.owner = owner) s := by
  apply wp_ownerRequired
  · intro refusal _ _ h
    cases h
  intro resolved hresolved
  rw [howner, Option.some.injEq] at hresolved
  subst hresolved
  apply wp_currentUserId
  · intro caller' hcaller
    rw [huser, Option.some.injEq] at hcaller
    subst hcaller
    refine wp_resolvedOwner howner (wp_select trivial ?_)
    cases s.plugin.activePeer user.id with
    | some row =>
      refine wp_mono (wp_renderConfig_sameDb hrpc) fun out s' hrendered filename text hout => ?_
      obtain ⟨hdb, hpeer⟩ := hrendered filename text hout
      obtain ⟨peer, hpeer⟩ := Option.ne_none_iff_exists'.mp hpeer
      exact Or.inl ⟨peer, hpeer, by rw [hdb, hpeer]⟩
    | none =>
      apply wp_wgEnsurePeer hrpc
      · intro reply peer w hensured
        apply wp_commit trivial
        · intro db _
          refine wp_mono (wp_renderConfig_sameDb hrpc) fun out s' hrendered filename text hout => ?_
          obtain ⟨hdb, -⟩ := hrendered filename text hout
          rw [hdb]
          rcases hensured.found with ⟨hfound, hsame⟩ | ⟨hnone, hmade, -, hinserted⟩
          · exact Or.inl ⟨peer, hfound, by rw [hsame, hfound]⟩
          · refine Or.inr ⟨hnone, peer, ?_, hmade⟩
            have hothers : s.daemon.db.peers.find? (fun p => p.username = usernameOf user.id) = none :=
              hnone
            rw [Db.getPeer, hinserted, List.find?_append, hothers]
            simp [hensured.username]
        · intro err _ _ _ h
          cases h
      · intro err w _ _ _ h
        cases h
  · intro err _ _ h
    cases h

/-- **VPN access follows the team** exactly when the daemon had no row for the user before the
    download, or one of the owner the request resolves: after any run and whatever fails in it. -/
theorem vpnAccess_follows_iff (env : DaemonEnv) (compare : FlagComparison) (s₀ s s' : Site)
    (caller : Option Int) (user : User) (owner : Owner) (filename text : String)
    (hinstalled : s₀.daemon.Installed)
    (hrun : SiteRun (Unreliable env) compare (fun _ _ => True) s₀ s)
    (huser : s.plugin.currentUser caller = some user)
    (howner : s.plugin.resolveOwner caller = some owner)
    (hends : Ends (siteSem (Unreliable env)) (UserRoutes.downloadWgConfig caller) s
      (.ok (.config filename text)) s') :
    s'.daemon.db.AccessFollows user.id owner ↔
      ∀ peer, s.daemon.db.getPeer (usernameOf user.id) = some peer → peer.owner = owner := by
  have hwellFormed : s'.daemon.WellFormed := (hrun.wellFormed hinstalled.wellFormed).site_ends hends
  rw [hwellFormed.db.accessFollows_iff]
  rcases hends.of_wp (wp_downloadWgConfig_owner runs_unreliable huser howner) filename text rfl with
    ⟨peer, hbefore, hafter⟩ | ⟨hbefore, peer, hafter, hmade⟩
  · rw [hbefore, hafter]
    simp
  · rw [hbefore, hafter]
    simp [hmade]

/-! ## A switch of teams -/

/-- A site in team mode with two teams and one member of the first. -/
def twoTeamSite : Site where
  plugin := { PluginDb.empty with
    teamsMode := true
    users := [⟨1, "alice", some 1, false, false⟩]
    teams := [1, 2] }
  buckets := fun _ => []
  daemon := { freshHost with wg := ⟨initServerContents 51820 "server", [], []⟩ }

/-- Some moves, and a download after them. -/
def downloadAfter (moves : List SiteMove) : Option (Site × Except PluginErr Response × Site) :=
  (siteHistory (execRpc DaemonEnv.default) sameContent (fun _ _ => true) moves twoTeamSite).bind
    fun s => ((siteMachine (execRpc DaemonEnv.default)).run (quietSiteChoice 0)
      (UserRoutes.downloadWgConfig (some 1)) s).map fun result => (s, result.2)

theorem ends_downloadAfter {moves : List SiteMove} {out : Except PluginErr Response}
    (h : downloadAfter moves = some (s, out, s')) :
    SiteRun (Unreliable DaemonEnv.default) sameContent (fun _ _ => True) twoTeamSite s ∧
      Ends (siteSem (Unreliable DaemonEnv.default)) (UserRoutes.downloadWgConfig (some 1)) s out s' := by
  obtain ⟨s₁, hhistory, hdownload⟩ := Option.bind_eq_some_iff.mp h
  obtain ⟨⟨trace, out', last⟩, hrun, heq⟩ := Option.map_eq_some_iff.mp hdownload
  cases heq
  exact ⟨.of_siteHistory (executes_unreliable _) (fun _ _ _ => trivial) hhistory,
    ends_of_siteRun (executes_unreliable _) hrun⟩

/-- The download succeeds for a member of the second team. -/
def DownloadsAs (tag : Owner) (result : Site × Except PluginErr Response × Site) : Prop :=
  (match result.2.1 with
    | .ok (.config _ _) => True
    | _ => False) ∧
    result.1.plugin.currentUser (some 1) = some ⟨1, "alice", some 2, false, false⟩ ∧
    result.1.plugin.resolveOwner (some 1) = some ⟨"team", 2⟩ ∧
    (result.2.2.daemon.db.getPeer (usernameOf 1)).map Peer.owner = some tag

instance (tag : Owner) (result : Site × Except PluginErr Response × Site) :
    Decidable (DownloadsAs tag result) := by
  unfold DownloadsAs
  split <;> infer_instance

theorem DownloadsAs.config {tag : Owner} {s s' : Site} {out : Except PluginErr Response}
    (h : DownloadsAs tag (s, out, s')) : ∃ filename text, out = .ok (.config filename text) := by
  obtain ⟨hout, -⟩ := h
  split at hout
  · rename_i filename text heq
    exact ⟨filename, text, heq⟩
  · exact hout.elim

def switchesTeam : SiteMove := .changed (.setTeam 1 (some 2))

theorem downloadAfter_switch :
    (downloadAfter [switchesTeam]).any (fun result => decide (DownloadsAs ⟨"team", 2⟩ result)) = true := by
  decide +kernel

theorem vpnAccess_follows_iff_switch :
    ∃ s s' filename text, downloadAfter [switchesTeam] = some (s, .ok (.config filename text), s') ∧
      (s'.daemon.db.AccessFollows 1 ⟨"team", 2⟩ ↔
        ∀ peer, s.daemon.db.getPeer (usernameOf 1) = some peer → peer.owner = ⟨"team", 2⟩) := by
  obtain ⟨⟨s, out, s'⟩, hrun, hdownloads⟩ := (Option.any_eq_true _ _).mp downloadAfter_switch
  have hdownloaded := of_decide_eq_true hdownloads
  obtain ⟨filename, text, rfl⟩ := hdownloaded.config
  obtain ⟨-, huser, howner, -⟩ := hdownloaded
  obtain ⟨hreached, hends⟩ := ends_downloadAfter hrun
  exact ⟨s, s', filename, text, hrun, vpnAccess_follows_iff DaemonEnv.default sameContent twoTeamSite s s'
    (some 1) ⟨1, "alice", some 2, false, false⟩ ⟨"team", 2⟩ filename text ⟨rfl, rfl⟩ hreached huser
    howner hends⟩

/-- A download in the first team, and the switch after it. -/
def downloadsThenSwitches : List SiteMove :=
  [.routed (.downloadWgConfig (some 1)) (quietSiteChoice 0), switchesTeam]

theorem downloadAfter_downloadsThenSwitches : (downloadAfter downloadsThenSwitches).any
    (fun result => decide (DownloadsAs ⟨"team", 1⟩ result)) = true := by
  decide +kernel

/-- After a switch of teams the peer stays with the former team. -/
theorem not_vpnAccess_follows :
    ¬ ∀ (env : DaemonEnv) (compare : FlagComparison) (s₀ s s' : Site) (caller : Option Int)
      (user : User) (owner : Owner) (filename text : String), s₀.daemon.Installed →
      SiteRun (Unreliable env) compare (fun _ _ => True) s₀ s →
      s.plugin.currentUser caller = some user → s.plugin.resolveOwner caller = some owner →
      Ends (siteSem (Unreliable env)) (UserRoutes.downloadWgConfig caller) s
        (.ok (.config filename text)) s' →
      s'.daemon.db.AccessFollows user.id owner := by
  intro hall
  obtain ⟨⟨s, out, s'⟩, hrun, hdownloads⟩ :=
    (Option.any_eq_true _ _).mp downloadAfter_downloadsThenSwitches
  have hdownloaded := of_decide_eq_true hdownloads
  obtain ⟨filename, text, rfl⟩ := hdownloaded.config
  obtain ⟨-, huser, howner, htag⟩ := hdownloaded
  obtain ⟨hreached, hends⟩ := ends_downloadAfter hrun
  have hfollows := hall DaemonEnv.default sameContent twoTeamSite s s' (some 1) _ _ filename text
    ⟨rfl, rfl⟩ hreached huser howner hends
  obtain ⟨peer, hpeer, hown⟩ := hfollows.tagged
  simp only at hpeer htag
  rw [hpeer, Option.map_some, Option.some.injEq] at htag
  rw [htag] at hown
  cases hown

end EdoPlugin
