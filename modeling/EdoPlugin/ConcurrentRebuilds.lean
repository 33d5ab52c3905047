import EdoPlugin.FirewallRebuild

/-!
# Rebuilds that run concurrently

Every connection is served by its own thread, and nothing serialises `_rebuild_firewall`: between
the two reads of one handler, its flush and its appends, other handlers commit, read, flush and
append as well.  A run converges when its last flush belongs to a handler whose reads are still
current and happens while no other handler is in the middle of its appends.
-/

namespace EdoPlugin

open Interaction

/-! ## The handlers -/

/-- A committed change of `peers` or `owner_octets`. -/
inductive TableChange where
  | allocatePeer (owner : Owner) (username publicKey : String) (privateKey : Option String)
  | removePeer (username : String)
  | allocateOctet (owner : Owner)
  | freeOctet (owner : Owner)
deriving DecidableEq, Repr

def TableChange.op : TableChange → DbOp
  | .allocatePeer owner username publicKey privateKey =>
    .allocatePeer owner username publicKey peerCandidateIps privateKey
  | .removePeer username => .removePeer username
  | .allocateOctet owner => .allocateOctet owner
  | .freeOctet owner => .freeOctet owner

def commitAll : List TableChange → Daemon Unit
  | [] => return ()
  | change :: changes => do
    let _ ← callDb change.op
    commitAll changes

/-- A handler that commits its changes and then runs `_rebuild_firewall`. -/
def commitAndRebuild (env : DaemonEnv) (changes : List TableChange) : Daemon Unit := do
  commitAll changes
  rebuildFirewall env

/-! ## How far a handler has come -/

/-- The reads of a rebuild. -/
structure Snapshot where
  peersByOwner : List (Owner × List IPv4Address)
  octetsByOwner : List (Owner × Octet)
deriving DecidableEq, Repr

def Snapshot.rules (snapshot : Snapshot) (publicIface : String) : List Rule :=
  buildChainRules publicIface snapshot.peersByOwner snapshot.octetsByOwner

/-- The reads are those the tables would give now. -/
def Snapshot.Current (snapshot : Snapshot) (db : Db) : Prop :=
  snapshot.peersByOwner = db.peersGroupedByOwner ∧
    snapshot.octetsByOwner = octetDictionary db.getAllOwnerOctets

instance (snapshot : Snapshot) (db : Db) : Decidable (snapshot.Current db) := by
  unfold Snapshot.Current
  infer_instance

inductive RebuildPhase where
  | committing
  | readPeers (peersByOwner : List (Owner × List IPv4Address))
  | readTables (snapshot : Snapshot)
  | hooking (publicIface : String) (snapshot : Snapshot)
  /-- Since its flush; these rules are still to be appended. -/
  | appending (publicIface : String) (snapshot : Snapshot) (rest : List Rule)
  | failed
deriving DecidableEq, Repr

def RebuildPhase.afterRoute (snapshot : Snapshot) : Except CmdFault (List String) → RebuildPhase
  | .error _ => .failed
  | .ok words => match wordAfterDev words with
    | none => .failed
    | some publicIface => .hooking publicIface snapshot

def RebuildPhase.next : RebuildPhase → (op : DaemonOp) → op.Res → RebuildPhase
  | .committing, .db .peersGroupedByOwner, peersByOwner => .readPeers peersByOwner
  | .readPeers peersByOwner, .db .getAllOwnerOctets, rows =>
    .readTables ⟨peersByOwner, octetDictionary rows⟩
  | .readTables snapshot, .filter .ipRouteShowDefault, words => .afterRoute snapshot words
  | .hooking publicIface snapshot, .filter (.iptables (.flush .edoForward)), .ok () =>
    .appending publicIface snapshot (snapshot.rules publicIface)
  | .appending publicIface snapshot (_ :: rest), .filter (.iptables (.check ..)), .ok () =>
    .appending publicIface snapshot rest
  | .appending publicIface snapshot (_ :: rest), .filter (.iptables (.append ..)), .ok () =>
    .appending publicIface snapshot rest
  | .appending _ _ (_ :: _), .filter (.iptables (.append ..)), .error _ => .failed
  | phase, _, _ => phase

/-- The calls a handler can make at this point. -/
def RebuildPhase.admits : RebuildPhase → DaemonOp → Prop
  | .committing, op => ∃ dbOp, op = .db dbOp
  | .readPeers _, op => op = .db .getAllOwnerOctets
  | .readTables _, op => op = .filter .ipRouteShowDefault
  | .hooking _ _, op => sparesForward op ∨ op = .filter (.iptables (.newChain .edoForward)) ∨
    op = .filter (.iptables (.flush .edoForward))
  | .appending _ _ [], op => sparesForward op
  | .appending _ _ (rule :: _), op => op = .filter (.iptables (.check .edoForward rule)) ∨
    op = .filter (.iptables (.append .edoForward rule))
  | .failed, op => op = .filter (.iptables (.flush .edoForward))

/-- `EDO_FORWARD` holds part of this handler's rules. -/
def RebuildPhase.midAppend : RebuildPhase → Bool
  | .appending _ _ (_ :: _) => true
  | _ => false

/-- The handler has appended all its rules. -/
def RebuildPhase.installed : RebuildPhase → Bool
  | .appending _ _ [] => true
  | _ => false

/-! ## Every handler follows the phases -/

/-- Nothing is assumed about the answers. -/
abbrev anyAnswer : RebuildPhase → (op : DaemonOp) → op.Res → Prop := fun _ _ _ => True

abbrev Follows {α : Type} (p : Daemon α) (P : α → RebuildPhase → Prop) (phase : RebuildPhase) :
    Prop :=
  Conforms (E := daemonEffect) anyAnswer RebuildPhase.admits RebuildPhase.next p (returning P) phase

theorem RebuildPhase.next_of_sparesForward {phase : RebuildPhase} {op : DaemonOp} (res : op.Res)
    (hphase : ∀ snapshot, phase ≠ .readTables snapshot) (hop : sparesForward op)
    (hmid : phase.midAppend = false) : phase.next op res = phase := by
  cases op with
  | filter op =>
    cases op with
    | iptables cmd =>
      cases phase with
      | appending publicIface snapshot rest =>
        cases rest with
        | nil => cases cmd <;> rfl
        | cons rule rest => cases hmid
      | hooking publicIface snapshot =>
        cases cmd with
        | flush chain =>
          cases chain with
          | edoForward => exact absurd rfl hop
          | _ => rfl
        | _ => rfl
      | _ => cases cmd <;> rfl
    | ipRouteShowDefault =>
      cases phase with
      | readTables snapshot => exact absurd rfl (hphase snapshot)
      | appending publicIface snapshot rest => cases rest <;> rfl
      | _ => rfl
    | _ =>
      cases phase with
      | appending publicIface snapshot rest => cases rest <;> rfl
      | _ => rfl
  | db op => exact hop.elim
  | docker op => exact hop.elim
  | wg op => exact hop.elim
  | host op => exact hop.elim

theorem follows_commitAll (changes : List TableChange) :
    Follows (commitAll changes) (fun _ phase => phase = .committing) .committing := by
  induction changes with
  | nil => exact rfl
  | cons change changes ih =>
    refine Conforms.perform ⟨_, rfl⟩ fun res _ => ?_
    have hsame : RebuildPhase.next .committing (.db change.op) res = .committing := by
      cases change <;> rfl
    rw [hsame]
    exact ih

theorem follows_requirePublicInterface (snapshot : Snapshot) :
    Follows requirePublicInterface
      (fun publicIface phase => phase = .hooking publicIface snapshot) (.readTables snapshot) := by
  have hgot : Follows getPublicInterface
      (fun iface phase => ∀ publicIface, iface = some publicIface →
        phase = .hooking publicIface snapshot) (.readTables snapshot) := by
    refine Conforms.perform rfl fun words _ => ?_
    cases words with
    | error err =>
      cases err with
      | nonzero stderr => rintro publicIface ⟨⟩
      | fileNotFound => trivial
    | ok words =>
      intro publicIface hiface
      show RebuildPhase.afterRoute snapshot (.ok words) = _
      simp only [RebuildPhase.afterRoute, hiface]
  refine Conforms.bind hgot ?_
  intro iface phase hphase
  cases iface with
  | none => trivial
  | some publicIface => exact hphase publicIface rfl

section Hooking

variable {publicIface : String} {snapshot : Snapshot}

theorem follows_sparesForward {α : Type} {p : Daemon α} (hp : CallsOnly sparesForward p) :
    Follows p (fun _ phase => phase = .hooking publicIface snapshot)
      (.hooking publicIface snapshot) := by
  refine Conforms.of_callsOnly hp (fun op hop => Or.inl hop) fun op res hop => ?_
  exact RebuildPhase.next_of_sparesForward res (by rintro _ ⟨⟩) hop rfl

/-- The hook is not `EDO_FORWARD` itself. -/
theorem follows_preferredForwardHook {chains : List ChainName}
    (hchains : ∀ chain ∈ chains, chain ≠ .edoForward) :
    Follows (preferredForwardHook chains)
      (fun target phase => target ≠ .edoForward ∧ phase = .hooking publicIface snapshot)
      (.hooking publicIface snapshot) := by
  induction chains with
  | nil => exact ⟨by decide, rfl⟩
  | cons chain chains ih =>
    have hchain : chain ≠ .edoForward := hchains chain List.mem_cons_self
    have ih := ih fun c hc => hchains c (List.mem_cons_of_mem _ hc)
    refine Conforms.bind (follows_sparesForward (callsOnly_chainExists hchain)) ?_
    rintro found phase rfl
    cases found with
    | true => exact ⟨hchain, rfl⟩
    | false => exact ih

theorem follows_hookEdoForward :
    Follows hookEdoForward (fun _ phase => phase = .hooking publicIface snapshot)
      (.hooking publicIface snapshot) := by
  refine Conforms.perform (Or.inr (Or.inl rfl)) fun created _ => ?_
  have hcreated : RebuildPhase.next (.hooking publicIface snapshot)
      (.filter (.iptables (.newChain .edoForward))) created =
        .hooking publicIface snapshot := rfl
  rw [hcreated]
  refine Conforms.bind (follows_sparesForward CallsOnly.ofExcept) ?_
  rintro _ phase rfl
  refine Conforms.bind (follows_sparesForward
    (callsOnly_unhookEdoFromAll forwardHookCandidates_ne)) ?_
  rintro _ phase rfl
  refine Conforms.bind (follows_preferredForwardHook forwardHookCandidates_ne) ?_
  rintro target phase ⟨htarget, rfl⟩
  exact follows_sparesForward
    (CallsOnly.bind (callsOnly_iptables htarget) fun _ => callsOnly_orRuntimeError)

end Hooking

section Appending

variable {publicIface : String} {snapshot : Snapshot}

theorem follows_iptablesAppend (rule : Rule) (rest : List Rule) :
    Follows (iptablesAppend .edoForward rule)
      (fun result phase => phase = if result.success then
        RebuildPhase.appending publicIface snapshot rest else .failed)
      (.appending publicIface snapshot (rule :: rest)) := by
  refine Conforms.perform (Or.inl rfl) fun checked _ => ?_
  cases checked with
  | ok _ => exact rfl
  | error err =>
    show Follows (iptables (.append .edoForward rule) >>= _) _ _
    refine Conforms.perform (Or.inr rfl) fun appended _ => ?_
    cases appended with
    | ok _ => exact rfl
    | error err => cases err with
      | nonzero stderr => exact rfl
      | fileNotFound => trivial

theorem follows_installRules (rules : List Rule) :
    Follows (installRules rules) (fun _ phase => phase = .appending publicIface snapshot [])
      (.appending publicIface snapshot rules) := by
  induction rules with
  | nil => exact rfl
  | cons rule rules ih =>
    refine Conforms.bind (follows_iptablesAppend rule rules) ?_
    rintro result phase rfl
    cases result.success with
    | true =>
      refine Conforms.bind ih ?_
      rintro results phase rfl
      exact rfl
    | false =>
      refine Conforms.perform rfl fun rolledBack _ => ?_
      cases rolledBack with
      | ok _ => trivial
      | error err => cases err <;> trivial

theorem follows_rebuildChain {wgPort : Nat} :
    Follows (rebuildChain publicIface (snapshot.rules publicIface) wgPort)
      (fun _ phase => phase = .appending publicIface snapshot [])
      (.hooking publicIface snapshot) := by
  refine Conforms.perform (Or.inr (Or.inr rfl)) fun flushed _ => ?_
  cases flushed with
  | error err => cases err <;> trivial
  | ok _ =>
    show Follows (installRules (snapshot.rules publicIface) >>= fun _ => _) _
      (.appending publicIface snapshot (snapshot.rules publicIface))
    refine Conforms.bind (follows_installRules _) ?_
    rintro results phase rfl
    refine Conforms.bind (Conforms.of_callsOnly callsOnly_applyWgInputRule
      (fun op hop => hop) fun op res hop =>
        RebuildPhase.next_of_sparesForward res (by rintro _ ⟨⟩) hop rfl) ?_
    rintro inputResult phase rfl
    exact rfl

end Appending

/-- **Every handler follows the phases**, and one that returns has appended all its rules. -/
theorem follows_commitAndRebuild (env : DaemonEnv) (changes : List TableChange) :
    Follows (commitAndRebuild env changes) (fun _ phase => phase.installed = true)
      .committing := by
  refine Conforms.bind (follows_commitAll changes) ?_
  rintro _ phase rfl
  refine Conforms.perform ⟨_, rfl⟩ fun peersByOwner _ => Conforms.perform rfl fun rows _ => ?_
  have hfirewall : Follows
      (applyFirewall peersByOwner (octetDictionary rows) env.vpnPort)
      (fun _ phase => phase.installed = true)
      (.readTables ⟨peersByOwner, octetDictionary rows⟩) := by
    refine Conforms.bind (follows_requirePublicInterface _) ?_
    rintro publicIface phase rfl
    refine Conforms.bind (follows_sparesForward callsOnly_enableForwarding) ?_
    rintro _ phase rfl
    refine Conforms.bind follows_hookEdoForward ?_
    rintro _ phase rfl
    have hrebuild : Follows (rebuildChain publicIface
        (Snapshot.rules ⟨peersByOwner, octetDictionary rows⟩ publicIface) env.vpnPort) _
        (.hooking publicIface ⟨peersByOwner, octetDictionary rows⟩) := follows_rebuildChain
    refine wp_mono hrebuild ?_
    intro out phase hphase
    cases out with
    | ok _ => exact congrArg RebuildPhase.installed hphase
    | error _ => trivial
  refine Conforms.bind hfirewall ?_
  intro _ phase hphase
  exact hphase

/-! ## After the last flush -/

abbrev forwardFlush : DaemonOp := .filter (.iptables (.flush .edoForward))

section Steps

variable {policy : Policy} {w w' : World} {phase : RebuildPhase} {op : DaemonOp} {res : op.Res}

/-- Away from the appends, and without a flush, `EDO_FORWARD` keeps its rules. -/
theorem RebuildPhase.forward_unchanged {chain : List Rule}
    (hchain : w.filter .edoForward = some chain) (hadmits : phase.admits op)
    (hmid : phase.midAppend = false) (hflush : op ≠ forwardFlush)
    (hsem : daemonSem policy w op res w') : w'.filter .edoForward = some chain := by
  have hspares : sparesForward op → w'.filter .edoForward = some chain :=
    fun hop => (sparesForward_filter hop hsem).trans hchain
  have hdb : ∀ dbOp, op = .db dbOp → w'.filter .edoForward = some chain := by
    rintro dbOp rfl
    obtain ⟨choice, -, hexec⟩ := hsem
    cases hexec
    exact hchain
  cases phase with
  | committing =>
    obtain ⟨dbOp, hop⟩ := hadmits
    exact hdb dbOp hop
  | readPeers peersByOwner => exact hdb _ hadmits
  | readTables snapshot =>
    have hop : op = .filter .ipRouteShowDefault := hadmits
    subst hop
    exact hspares trivial
  | hooking publicIface snapshot =>
    rcases hadmits with hop | rfl | hop
    · exact hspares hop
    · obtain ⟨choice, -, hexec⟩ := hsem
      cases hexec
      cases choice with
      | some err => exact hchain
      | none => simp [FilterOp.exec, FilterTable.run, hchain]
    · exact absurd hop hflush
  | appending publicIface snapshot rest =>
    cases rest with
    | nil => exact hspares hadmits
    | cons rule rest => cases hmid
  | failed => exact absurd hadmits hflush

/-- Away from the appends, and without a flush, no handler gets into or through its appends. -/
theorem RebuildPhase.next_away (hadmits : phase.admits op) (hmid : phase.midAppend = false)
    (hflush : op ≠ forwardFlush) :
    (phase.next op res).midAppend = false ∧
      (phase.next op res).installed = phase.installed := by
  cases phase with
  | committing =>
    obtain ⟨dbOp, rfl⟩ := hadmits
    cases dbOp <;> exact ⟨rfl, rfl⟩
  | readPeers peersByOwner =>
    have hop : op = .db .getAllOwnerOctets := hadmits
    subst hop
    exact ⟨rfl, rfl⟩
  | readTables snapshot =>
    have hop : op = .filter .ipRouteShowDefault := hadmits
    subst hop
    show (RebuildPhase.afterRoute snapshot res).midAppend = false ∧
      (RebuildPhase.afterRoute snapshot res).installed = false
    unfold RebuildPhase.afterRoute
    split
    · exact ⟨rfl, rfl⟩
    · split <;> exact ⟨rfl, rfl⟩
  | hooking publicIface snapshot =>
    rcases hadmits with hop | rfl | hop
    · rw [next_of_sparesForward res (by rintro _ ⟨⟩) hop rfl]
      exact ⟨rfl, rfl⟩
    · exact ⟨rfl, rfl⟩
    · exact absurd hop hflush
  | appending publicIface snapshot rest =>
    cases rest with
    | nil =>
      rw [next_of_sparesForward res (by rintro _ ⟨⟩) hadmits rfl]
      exact ⟨rfl, rfl⟩
    | cons rule rest => cases hmid
  | failed => exact absurd hadmits hflush

/-- A handler that has installed its rules no longer touches the tables. -/
theorem RebuildPhase.db_unchanged (hadmits : phase.admits op)
    (hphase : phase.installed = true ∨ phase.midAppend = true)
    (hsem : daemonSem policy w op res w') : w'.db = w.db := by
  have hcall : filterCall op := by
    cases phase with
    | appending publicIface snapshot rest =>
      cases rest with
      | nil => exact filterCall_of_sparesForward op hadmits
      | cons rule rest => rcases hadmits with rfl | rfl <;> trivial
    | _ => rcases hphase with h | h <;> cases h
  rw [filterCall_rest hcall hsem]
  rfl

/-- One append, or the check before it, leaves the verdicts of what is there and what is to come. -/
theorem RebuildPhase.append_step {publicIface : String} {snapshot : Snapshot} {rule : Rule}
    {rest chain : List Rule} (hchain : w.filter .edoForward = some chain)
    (hadmits : (appending publicIface snapshot (rule :: rest)).admits op)
    (hsem : daemonSem policy w op res w') :
    (appending publicIface snapshot (rule :: rest)).next op res = .failed ∨
    ∃ rest' chain', (appending publicIface snapshot (rule :: rest)).next op res =
        .appending publicIface snapshot rest' ∧ w'.filter .edoForward = some chain' ∧
      ∀ packet, verdict (chain' ++ rest') packet = verdict (chain ++ rule :: rest) packet := by
  obtain ⟨choice, -, hexec⟩ := hsem
  rcases hadmits with rfl | rfl
  · right
    cases hexec
    cases choice with
    | some err => exact ⟨rule :: rest, chain, rfl, hchain, fun _ => rfl⟩
    | none =>
      by_cases hmem : rule ∈ chain
      · have hrun : w.filter.run (.check .edoForward rule) = (.ok (), w.filter) := by
          simp [FilterTable.run, hchain, hmem]
        refine ⟨rest, chain, ?_, ?_, fun packet => ?_⟩
        · simp only [FilterOp.exec, hrun]
          rfl
        · simp only [FilterOp.exec, hrun]
          exact hchain
        · exact (FirstMatch.firstMatch_append_cons_of_mem hmem).symm
      · have hrun : w.filter.run (.check .edoForward rule) = (.error (.nonzero
            "iptables: Bad rule (does a matching rule exist in that chain?)."), w.filter) := by
          simp [FilterTable.run, hchain, hmem]
        refine ⟨rule :: rest, chain, ?_, ?_, fun _ => rfl⟩
        · simp only [FilterOp.exec, hrun]
          rfl
        · simp only [FilterOp.exec, hrun]
          exact hchain
  · cases hexec
    cases choice with
    | some err => exact Or.inl rfl
    | none =>
      by_cases htarget : w.filter.targetExists rule = true
      · right
        have hrun : w.filter.run (.append .edoForward rule) =
            (.ok (), Function.update w.filter .edoForward (some (chain ++ [rule]))) := by
          simp [FilterTable.run, hchain, htarget]
        refine ⟨rest, chain ++ [rule], ?_, ?_, fun packet => by simp⟩
        · simp only [FilterOp.exec, hrun]
          rfl
        · simp only [FilterOp.exec, hrun]
          exact Function.update_self ..
      · left
        have hrun : w.filter.run (.append .edoForward rule) = (.error (.nonzero
            "iptables: No chain/target/match by that name."), w.filter) := by
          simp [FilterTable.run, hchain, htarget]
        simp only [FilterOp.exec, hrun]
        rfl

end Steps

/-- What holds after the last flush of a run, made by `tid` with current reads: its rules are in the
    chain or still to come, no other handler appends, and the reads are current until another
    handler changes the tables, which then has its own flush before it. -/
structure AfterLastFlush (tid : Nat) (publicIface : String) (snapshot : Snapshot) (w : World)
    (phases : List RebuildPhase) : Prop where
  own : phases[tid]? = some .failed ∨ ∃ rest chain,
    phases[tid]? = some (.appending publicIface snapshot rest) ∧
    w.filter .edoForward = some chain ∧
    ∀ packet, verdict (chain ++ rest) packet = verdict (snapshot.rules publicIface) packet
  others : ∀ other phase, other ≠ tid → phases[other]? = some phase → phase.midAppend = false
  tables : snapshot.Current w.db ∨
    ∃ other phase, other ≠ tid ∧ phases[other]? = some phase ∧ phase.installed = false

theorem getElem?_set_mover {phases : List RebuildPhase} {mover : Nat} {phase phase' : RebuildPhase}
    (hget : phases[mover]? = some phase) : (phases.set mover phase')[mover]? = some phase' := by
  obtain ⟨hlt, -⟩ := List.getElem?_eq_some_iff.mp hget
  exact List.getElem?_set_self hlt

section LastFlush

variable {policy : Policy} {tid mover : Nat} {publicIface : String} {snapshot : Snapshot}
  {w w' : World} {phases : List RebuildPhase} {phase : RebuildPhase} {op : DaemonOp} {res : op.Res}

/-- A step of the handler that flushed last. -/
theorem AfterLastFlush.step_own (h : AfterLastFlush tid publicIface snapshot w phases)
    (hget : phases[tid]? = some phase) (hadmits : phase.admits op) (hflush : op ≠ forwardFlush)
    (hsem : daemonSem policy w op res w') :
    AfterLastFlush tid publicIface snapshot w' (phases.set tid (phase.next op res)) := by
  rcases h.own with hfailed | ⟨rest, chain, happending, hchain, hverdict⟩
  · rw [hfailed] at hget
    cases hget
    exact absurd hadmits hflush
  · rw [happending] at hget
    cases hget
    have hdb : w'.db = w.db := by
      refine RebuildPhase.db_unchanged hadmits ?_ hsem
      cases rest with
      | nil => exact Or.inl rfl
      | cons rule rest => exact Or.inr rfl
    refine ⟨?_, ?_, ?_⟩
    · rw [getElem?_set_mover happending]
      cases rest with
      | nil =>
        right
        rw [RebuildPhase.next_of_sparesForward res (by rintro _ ⟨⟩) hadmits rfl]
        exact ⟨[], chain, rfl, RebuildPhase.forward_unchanged hchain hadmits rfl hflush hsem,
          hverdict⟩
      | cons rule rest =>
        rcases RebuildPhase.append_step hchain hadmits hsem with
          hnext | ⟨rest', chain', hnext, hchain', hsame⟩
        · exact Or.inl (congrArg some hnext)
        · right
          exact ⟨rest', chain', congrArg some hnext, hchain',
            fun packet => (hsame packet).trans (hverdict packet)⟩
    · intro other φ hne hφ
      rw [List.getElem?_set_ne (Ne.symm hne)] at hφ
      exact h.others other φ hne hφ
    · rcases h.tables with hcurrent | ⟨other, φ, hne, hφ, hinstalled⟩
      · exact Or.inl (hdb ▸ hcurrent)
      · exact Or.inr ⟨other, φ, hne, by rwa [List.getElem?_set_ne (Ne.symm hne)], hinstalled⟩

/-- A step of another handler. -/
theorem AfterLastFlush.step_other (h : AfterLastFlush tid publicIface snapshot w phases)
    (hne : mover ≠ tid) (hget : phases[mover]? = some phase) (hadmits : phase.admits op)
    (hflush : op ≠ forwardFlush) (hsem : daemonSem policy w op res w') :
    AfterLastFlush tid publicIface snapshot w' (phases.set mover (phase.next op res)) := by
  have hmid : phase.midAppend = false := h.others mover phase hne hget
  have hnext : (phase.next op res).midAppend = false ∧
      (phase.next op res).installed = phase.installed :=
    RebuildPhase.next_away hadmits hmid hflush
  refine ⟨?_, ?_, ?_⟩
  · rw [List.getElem?_set_ne hne]
    rcases h.own with hfailed | ⟨rest, chain, happending, hchain, hverdict⟩
    · exact Or.inl hfailed
    · exact Or.inr ⟨rest, chain, happending,
        RebuildPhase.forward_unchanged hchain hadmits hmid hflush hsem, hverdict⟩
  · intro other φ hother hφ
    by_cases hmover : other = mover
    · subst hmover
      rw [getElem?_set_mover hget] at hφ
      cases hφ
      exact hnext.1
    · rw [List.getElem?_set_ne (Ne.symm hmover)] at hφ
      exact h.others other φ hother hφ
  · by_cases hinstalled : phase.installed = true
    · have hdb : w'.db = w.db := RebuildPhase.db_unchanged hadmits (Or.inl hinstalled) hsem
      rcases h.tables with hcurrent | ⟨other, φ, hother, hφ, hnot⟩
      · exact Or.inl (hdb ▸ hcurrent)
      · have hmover : other ≠ mover := by
          rintro rfl
          rw [hget] at hφ
          cases hφ
          rw [hinstalled] at hnot
          cases hnot
        exact Or.inr ⟨other, φ, hother, by rwa [List.getElem?_set_ne (Ne.symm hmover)], hnot⟩
    · right
      refine ⟨mover, _, hne, getElem?_set_mover hget, ?_⟩
      rw [hnext.2]
      simpa using hinstalled

theorem AfterLastFlush.step (h : AfterLastFlush tid publicIface snapshot w phases)
    (hget : phases[mover]? = some phase) (hadmits : phase.admits op) (hflush : op ≠ forwardFlush)
    (hsem : daemonSem policy w op res w') :
    AfterLastFlush tid publicIface snapshot w' (phases.set mover (phase.next op res)) := by
  by_cases hmover : mover = tid
  · subst hmover
    exact h.step_own hget hadmits hflush hsem
  · exact h.step_other hmover hget hadmits hflush hsem

/-- When every handler has installed its rules, the chain decides as the final tables do. -/
theorem AfterLastFlush.verdict_eq (h : AfterLastFlush tid publicIface snapshot w phases)
    (hall : ∀ phase ∈ phases, phase.installed = true) :
    ∃ chain, w.filter .edoForward = some chain ∧
      ∀ packet, verdict chain packet = verdict (w.db.chainRules publicIface) packet := by
  have hcurrent : snapshot.Current w.db := by
    rcases h.tables with hcurrent | ⟨other, φ, -, hφ, hnot⟩
    · exact hcurrent
    · rw [hall φ (List.mem_of_getElem? hφ)] at hnot
      cases hnot
  have hrules : snapshot.rules publicIface = w.db.chainRules publicIface := by
    unfold Snapshot.rules Db.chainRules
    rw [hcurrent.1, hcurrent.2]
  rcases h.own with hfailed | ⟨rest, chain, happending, hchain, hverdict⟩
  · cases hall _ (List.mem_of_getElem? hfailed)
  · cases rest with
    | nil =>
      refine ⟨chain, hchain, fun packet => ?_⟩
      rw [← hrules, ← hverdict packet, List.append_nil]
    | cons rule rest => cases hall _ (List.mem_of_getElem? happending)

end LastFlush

/-! ## Runs -/

abbrev RebuildConfig := Config daemonEffect PyErr RebuildPhase World

/-- The handlers, each with its changes still to commit. -/
def startHandlers (env : DaemonEnv) (handlers : List (List TableChange)) (w : World) :
    RebuildConfig :=
  ⟨w, handlers.map fun changes => ⟨.committing, commitAndRebuild env changes⟩⟩

/-- The chain decides every packet as the rules of the tables do. -/
def Converged (w : World) : Prop :=
  ∃ publicIface chain, w.filter .edoForward = some chain ∧
    ∀ packet, verdict chain packet = verdict (w.db.chainRules publicIface) packet

/-- A run whose last flush is made with current reads, while no other handler is between its own
    flush and its last append. -/
def FreshLastFlush (policy : Policy) (c₀ c : RebuildConfig) : Prop :=
  ∃ c₁ c₂ tid publicIface snapshot,
    Reach (daemonSem policy) RebuildPhase.next (fun _ _ _ => True) c₀ c₁ ∧
    c₁.phases[tid]? = some (.hooking publicIface snapshot) ∧
    snapshot.Current c₁.world.db ∧
    (∀ other phase, other ≠ tid → c₁.phases[other]? = some phase → phase.midAppend = false) ∧
    Step (daemonSem policy) RebuildPhase.next c₁ ⟨tid, forwardFlush, .ok ()⟩ c₂ ∧
    Reach (daemonSem policy) RebuildPhase.next (fun _ _ event => event.op ≠ forwardFlush) c₂ c

/-- The threads of a run follow the phases at every point. -/
theorem follows_of_reach {policy : Policy} {c₀ c : RebuildConfig}
    {ok : World → List RebuildPhase → Event daemonEffect → Prop}
    (hfollows : ∀ thread ∈ c₀.threads,
      Follows thread.prog (fun _ phase => phase.installed = true) thread.phase)
    (hreach : Reach (daemonSem policy) RebuildPhase.next ok c₀ c) :
    ∀ thread ∈ c.threads,
      Follows thread.prog (fun _ phase => phase.installed = true) thread.phase :=
  (reach_invariant (J := fun _ _ => True) (fun _ _ _ _ _ _ _ _ _ _ _ _ => ⟨trivial, trivial⟩)
    hfollows trivial hreach).2

/-- The state right after a flush with current reads. -/
theorem AfterLastFlush.of_flush {policy : Policy} {c₁ c₂ : RebuildConfig} {tid : Nat}
    {publicIface : String} {snapshot : Snapshot}
    (hphase : c₁.phases[tid]? = some (.hooking publicIface snapshot))
    (hcurrent : snapshot.Current c₁.world.db)
    (hquiet : ∀ other phase, other ≠ tid → c₁.phases[other]? = some phase →
      phase.midAppend = false)
    (hstep : Step (daemonSem policy) RebuildPhase.next c₁ ⟨tid, forwardFlush, .ok ()⟩ c₂) :
    AfterLastFlush tid publicIface snapshot c₂.world c₂.phases := by
  obtain ⟨world, threads⟩ := c₁
  cases hstep with
  | @mk _ world' _ _ phase _ rest _ hget hsem =>
    have hthread : (Config.phases ⟨world, threads⟩)[tid]? = some phase := by
      simp [Config.phases, hget]
    have hnow : phase = .hooking publicIface snapshot := by
      rw [hthread] at hphase
      exact Option.some.inj hphase
    subst hnow
    have hphases : Config.phases ⟨world', threads.set tid ⟨RebuildPhase.next
        (.hooking publicIface snapshot) forwardFlush (.ok ()), rest (.ok ())⟩⟩ =
        (Config.phases ⟨world, threads⟩).set tid
          (.appending publicIface snapshot (snapshot.rules publicIface)) := by
      simp [Config.phases, List.map_set, RebuildPhase.next]
    obtain ⟨hdb, hempty⟩ : world'.db = world.db ∧ world'.filter .edoForward = some [] := by
      obtain ⟨choice, -, hexec⟩ := hsem
      cases choice with
      | some err => cases hexec
      | none =>
        cases hchain : world.filter .edoForward with
        | none =>
          simp [daemonMachine, DaemonOp.exec, FilterOp.exec, FilterTable.run, hchain] at hexec
        | some old =>
          simp only [daemonMachine, DaemonOp.exec, FilterOp.exec, FilterTable.run, hchain,
            Option.some.injEq, Prod.mk.injEq, true_and] at hexec
          rw [← hexec]
          exact ⟨rfl, by simp⟩
    rw [hphases]
    refine ⟨Or.inr ⟨_, [], getElem?_set_mover hthread, hempty, fun _ => rfl⟩, ?_, ?_⟩
    · intro other φ hne hφ
      rw [List.getElem?_set_ne (Ne.symm hne)] at hφ
      exact hquiet other φ hne hφ
    · exact Or.inl (hdb ▸ hcurrent)

/-- **Concurrent rebuilds converge** when the last flush is a fresh one: once every handler has
    returned, `EDO_FORWARD` decides every packet as the rules of the final tables do. -/
theorem rebuilds_converge (policy : Policy) (env : DaemonEnv) (handlers : List (List TableChange))
    (w : World) (c : RebuildConfig)
    (hrun : FreshLastFlush policy (startHandlers env handlers w) c) (hfinished : c.Finished) :
    Converged c.world := by
  obtain ⟨c₁, c₂, tid, publicIface, snapshot, hreach₁, hphase, hcurrent, hquiet, hstep, hreach⟩ :=
    hrun
  have hstart : ∀ thread ∈ (startHandlers env handlers w).threads,
      Follows thread.prog (fun _ phase => phase.installed = true) thread.phase := by
    intro thread hthread
    obtain ⟨changes, -, rfl⟩ := List.mem_map.mp hthread
    exact follows_commitAndRebuild env changes
  have hfollows₂ := follows_of_reach hstart (hreach₁.step hstep trivial)
  have hafter := AfterLastFlush.of_flush hphase hcurrent hquiet hstep
  have hkeeps : ∀ world phases mover phase (op : DaemonOp) (res : op.Res) world',
      AfterLastFlush tid publicIface snapshot world phases → phases[mover]? = some phase →
      RebuildPhase.admits phase op → daemonSem policy world op res world' → op ≠ forwardFlush →
      True ∧ AfterLastFlush tid publicIface snapshot world'
        (phases.set mover (RebuildPhase.next phase op res)) := by
    intro world phases mover phase op res world' h hget hadmits hsem hflush
    exact ⟨trivial, h.step hget hadmits hflush hsem⟩
  obtain ⟨hlast, hfollows⟩ := reach_invariant hkeeps hfollows₂ hafter hreach
  refine ⟨publicIface, hlast.verdict_eq ?_⟩
  intro phase hmem
  obtain ⟨thread, hthread, rfl⟩ := List.mem_map.mp hmem
  have hdone := hfollows thread hthread
  rw [hfinished thread hthread] at hdone
  exact hdone

/-- A host on which EDO has not set up its chains yet. -/
def bareHost (db : Db) : World where
  db := db
  docker := Docker.empty
  filter := fun chain => match chain with
    | .dockerUser | .forward | .input => some []
    | .edoForward | .edoInput => none
  wg := ⟨"", [], []⟩
  spawnPermits := 4

/-- The first handler frees the octet of a team, the second removes a peer of another. -/
def twoHandlers : RebuildConfig :=
  startHandlers DaemonEnv.default [[.freeOctet ⟨"team", 1⟩], [.removePeer "user_2"]]
    (bareHost twoTeams)

/-- In each block, one thread makes so many uneventful calls. -/
def quietly (blocks : List (Nat × Nat)) : List (Nat × ((op : DaemonOp) → op.Choice)) :=
  blocks.flatMap fun block => List.replicate block.2 (block.1, quietChoice)

theorem reach_quietly {allow : Event daemonEffect → Bool} {blocks : List (Nat × Nat)}
    {c c' : RebuildConfig}
    (h : daemonMachine.runSchedule RebuildPhase.next allow (quietly blocks) c = some c') :
    Reach (daemonSem noFault) RebuildPhase.next (fun _ _ event => allow event = true) c c' := by
  refine Machine.reach_of_runSchedule ?_ h
  intro entry hentry op
  obtain ⟨block, -, hmem⟩ := List.mem_flatMap.mp hentry
  rw [List.eq_of_mem_replicate hmem]
  exact noFault_quietChoice op

/-- The first handler empties `EDO_FORWARD`. -/
def isFirstsFlush : Event daemonEffect → Bool
  | ⟨0, .filter (.iptables (.flush .edoForward)), .ok ()⟩ => true
  | _ => false

theorem eq_of_isFirstsFlush {event : Event daemonEffect} (h : isFirstsFlush event = true) :
    event = ⟨0, forwardFlush, .ok ()⟩ := by
  unfold isFirstsFlush at h
  split at h
  · rfl
  · cases h

def sparesFlush : Event daemonEffect → Bool
  | ⟨_, .filter (.iptables (.flush .edoForward)), _⟩ => false
  | _ => true

theorem ne_of_sparesFlush {event : Event daemonEffect} (h : sparesFlush event = true) :
    event.op ≠ forwardFlush := by
  obtain ⟨tid, op, res⟩ := event
  rintro ⟨⟩
  cases h

/-- The first handler is about to flush with current reads; the second does not append. -/
def readyToFlush (c : RebuildConfig) : Bool :=
  match c.phases with
  | [.hooking _ snapshot, other] => decide (snapshot.Current c.world.db) && !other.midAppend
  | _ => false

/-- The second handler runs, then the first up to its flush. -/
def beforeFlush : Option RebuildConfig :=
  daemonMachine.runSchedule RebuildPhase.next (fun _ => true) (quietly [(1, 30), (0, 15)])
    twoHandlers

def atFlush : Option (Event daemonEffect × RebuildConfig) :=
  beforeFlush.bind fun c => daemonMachine.stepThread RebuildPhase.next c 0 quietChoice

def afterFlush : Option RebuildConfig :=
  atFlush.bind fun flushed =>
    daemonMachine.runSchedule RebuildPhase.next sparesFlush (quietly [(0, 12)]) flushed.2

theorem oneByOne_checks : beforeFlush.any readyToFlush = true ∧
    atFlush.any (fun flushed => isFirstsFlush flushed.1) = true ∧
    afterFlush.any Config.isFinished = true := by
  decide +kernel

theorem rebuilds_converge_oneByOne :
    ∃ c, FreshLastFlush noFault twoHandlers c ∧ c.Finished ∧ Converged c.world := by
  obtain ⟨hready, hflush, hfinished⟩ := oneByOne_checks
  obtain ⟨c₁, hc₁, hready⟩ := (Option.any_eq_true _ _).mp hready
  obtain ⟨⟨event, c₂⟩, hc₂, hflush⟩ := (Option.any_eq_true _ _).mp hflush
  obtain ⟨c, hc, hfinished⟩ := (Option.any_eq_true _ _).mp hfinished
  have hstep : daemonMachine.stepThread RebuildPhase.next c₁ 0 quietChoice = some (event, c₂) := by
    rw [← hc₂, atFlush, hc₁]
    rfl
  have hsuffix : daemonMachine.runSchedule RebuildPhase.next sparesFlush (quietly [(0, 12)]) c₂ =
      some c := by
    rw [← hc, afterFlush, hc₂]
    rfl
  have hfresh : FreshLastFlush noFault twoHandlers c := by
    unfold readyToFlush at hready
    split at hready
    · rename_i publicIface snapshot other hphases
      simp only [Bool.and_eq_true, decide_eq_true_eq, Bool.not_eq_true'] at hready
      refine ⟨c₁, c₂, 0, publicIface, snapshot, (reach_quietly hc₁).mono fun _ _ _ _ => trivial, by rw [hphases]; rfl, hready.1, ?_, ?_, ?_⟩
      · intro tid phase hne hphase
        rw [hphases] at hphase
        match tid, hne with
        | 1, _ =>
          cases hphase
          exact hready.2
        | tid + 2, _ => cases hphase
      · rw [← eq_of_isFirstsFlush hflush]
        exact Machine.step_of_stepThread noFault_quietChoice hstep
      · exact (reach_quietly hsuffix).mono fun _ _ _ => ne_of_sparesFlush
    · cases hready
  have hdone := Config.finished_of_isFinished hfinished
  exact ⟨c, hfresh, hdone, rebuilds_converge noFault DaemonEnv.default _ _ c hfresh hdone⟩

/-- The schedule in which the second handler reads the tables before the first one changes them, and
    installs its rules after the first one has finished. -/
def staleRun : Option RebuildConfig :=
  daemonMachine.runSchedule RebuildPhase.next (fun _ => true)
    (quietly [(1, 3), (0, 26), (1, 29)]) twoHandlers

/-- A packet from the peer to the octet that was freed. -/
def toFreedOctet : Packet := ⟨dotted 10 8 0 2, dotted 10 9 7 5, "edo_o7"⟩

/-- The chain still accepts the packet, and the tables hold no octet any more. -/
def acceptsFreed (w : World) : Bool :=
  (w.filter .edoForward).any (fun rules => verdict rules toFreedOctet = some .accept) &&
    w.db.ownerOctets.isEmpty

theorem staleRun_checks :
    staleRun.any (fun c => c.isFinished && acceptsFreed c.world) = true := by
  decide +kernel

/-- Without octets the tables grant nothing. -/
theorem not_converged_of_acceptsFreed {w : World} (h : acceptsFreed w = true) : ¬ Converged w := by
  rintro ⟨publicIface, chain, hchain, hverdict⟩
  simp only [acceptsFreed, Bool.and_eq_true, hchain, Option.any_some, decide_eq_true_eq,
    List.isEmpty_iff] at h
  obtain ⟨haccept, hnil⟩ := h
  have hgrants : ¬ w.db.Grants toFreedOctet := by
    rintro ⟨_, _, row, hrow, -⟩
    rw [hnil] at hrow
    cases hrow
  have hsource : ¬ dockerPool.contains toFreedOctet.source = true := by decide
  have hfallsOff : verdict (w.db.chainRules publicIface) toFreedOctet = none := by
    rw [verdict_chainRules, if_neg (by decide), if_neg hgrants, if_neg fun h => hsource h.1]
  rw [← hverdict, haccept] at hfallsOff
  cases hfallsOff

/-- **Rebuilds can end with stale rules.** -/
theorem not_rebuilds_converge :
    ¬ ∀ (env : DaemonEnv) (handlers : List (List TableChange)) (w : World) (c : RebuildConfig),
      Reach (daemonSem noFault) RebuildPhase.next (fun _ _ _ => True)
        (startHandlers env handlers w) c → c.Finished → Converged c.world := by
  intro hall
  obtain ⟨c, hrun, hchecks⟩ := (Option.any_eq_true _ _).mp staleRun_checks
  rw [Bool.and_eq_true] at hchecks
  have hreach : Reach (daemonSem noFault) RebuildPhase.next (fun _ _ _ => True) twoHandlers c :=
    (reach_quietly hrun).mono fun _ _ _ _ => trivial
  exact not_converged_of_acceptsFreed hchecks.2
    (hall _ _ _ c hreach (Config.finished_of_isFinished hchecks.1))

end EdoPlugin
