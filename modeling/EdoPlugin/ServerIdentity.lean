import EdoPlugin.DaemonStart
import EdoPlugin.HandlerCalls
import EdoPlugin.ServerFileRaces

/-!
# The identity of the VPN server

The first start of the daemon writes a key and a port to `wg0.conf`, and every later start reads
them.  In between the handlers append to the file and write it anew, several of them at a time, and
the process may be killed between any two calls.  As long as no write to the file fails halfway, the
key and the port stay what they were, so the configurations that participants have downloaded stay
good.
-/

namespace EdoPlugin

open Interaction

/-! ## What stays -/

structure ServerIdentity where
  port : Nat
  privateKey : String
deriving DecidableEq, Repr

/-- A row that a handler has written. -/
def Peer.IsOwn (peer : Peer) : Prop :=
  IsKeyText peer.publicKey ∧ ∃ userId, peer.username = usernameOf userId

/-- The file is that of the identity, with some peers. -/
def ServerIdentity.Writes (identity : ServerIdentity) (text : String) : Prop :=
  ∃ peers : List Peer, (∀ peer ∈ peers, peer.IsOwn) ∧
    text = serverText identity.port identity.privateKey peers

/-- The configuration of a client names the public key of the server. -/
def ServerIdentity.Configures (derive : String → String) (identity : ServerIdentity)
    (text : String) : Prop :=
  ∃ (peer : Peer) (endpoint : String) (port : Nat), text =
    renderClientConfig peer ⟨identity.privateKey, derive identity.privateKey, endpoint, port⟩

/-- A client file: a write of it may have been cut short. -/
def ServerIdentity.Begins (derive : String → String) (identity : ServerIdentity) (text : String) :
    Prop :=
  ∃ whole, identity.Configures derive whole ∧ text.toList <+: whole.toList

/-- The reply, if it tells the public key of the server, tells that one. -/
def ServerIdentity.Tells (derive : String → String) (identity : Option ServerIdentity) :
    Reply → Prop
  | .peer reply => ∃ i ∈ identity, reply.serverPublicKey = derive i.privateKey
  | .config text => ∃ i ∈ identity, i.Configures derive text
  | _ => True

/-- A host whose server has this identity, or none yet. -/
structure ServerHost.Holds (derive : String → String) (identity : Option ServerIdentity)
    (h : ServerHost) : Prop where
  fileExists : h.fileExists = identity.isSome
  file : ∀ i ∈ identity, IsKeyText i.privateKey ∧ i.Writes h.world.wg.serverConfig
  peers : ∀ peer ∈ h.world.db.peers, peer.IsOwn ∧ identity.isSome = true
  clients : ∀ file ∈ h.world.wg.clientFiles, ∃ i ∈ identity, i.Begins derive file.2
  replies : ∀ reply ∈ h.replies, ServerIdentity.Tells derive identity reply

/-- A host on which the daemon has not run. -/
structure ServerHost.Fresh (h : ServerHost) : Prop where
  fileExists : h.fileExists = false
  peers : h.world.db.peers = []
  clients : h.world.wg.clientFiles = []
  replies : h.replies = []

/-! ## One call -/

/-- What a handler learns from an answer. -/
def learns (derive : String → String) (identity : Option ServerIdentity) :
    (op : DaemonOp) → op.Res → Prop
  | .wg .genkey, key => ∀ k, key = .ok k → IsKeyText k
  | .wg (.pubkey privateKey), key => ∀ k, key = .ok k → k = derive privateKey
  | .wg .parseInterfaceSection, section_ => ∀ options, section_ = .ok options →
      ∃ i ∈ identity, options = interfaceSection i.port i.privateKey
  | .wg .readServerConfig, content => ∀ text, content = .ok text →
      ∃ i ∈ identity, IsKeyText i.privateKey ∧ i.Writes text
  | .db .getAllPeers, peers => ∀ peer ∈ peers, Peer.IsOwn peer
  | .db (.allocatePeer _ username publicKey _ _), allocated => ∀ peer, allocated = .ok peer →
      peer.username = username ∧ peer.publicKey = publicKey
  | _, _ => True

/-- The calls that the identity allows. -/
def keepsIdentity (derive : String → String) (identity : Option ServerIdentity) : DaemonOp → Prop
  | .wg (.appendServerConfig block) => identity.isSome = true ∧
      ∃ peer : Peer, peer.IsOwn ∧ block = peerBlock peer
  | .wg (.writeServerConfig text) => ∃ i ∈ identity, i.Writes text
  | .wg (.writeClientFile _ text) => ∃ i ∈ identity, i.Configures derive text
  | .db (.allocatePeer _ username publicKey _ _) => identity.isSome = true ∧ IsKeyText publicKey ∧
      ∃ userId, username = usernameOf userId
  | _ => True

section Steps

variable {derive : String → String} {identity : Option ServerIdentity} {i : ServerIdentity}
  {h h' : ServerHost} {op : DaemonOp} {res : op.Res}

theorem Peer.IsOwn.oneLine {peer : Peer} (hpeer : peer.IsOwn) :
    ConfigParser.OneLine peer.username.toList := by
  obtain ⟨-, userId, hname⟩ := hpeer
  rw [hname]
  exact oneLine_usernameOf userId

/-- Every reader finds the key and the port. -/
theorem ServerIdentity.Writes.parsed {text : String} (hwrites : i.Writes text)
    (hkey : IsKeyText i.privateKey) :
    parseInterfaceSection text = .ok (interfaceSection i.port i.privateKey) := by
  obtain ⟨peers, hpeers, rfl⟩ := hwrites
  exact parseInterfaceSection_serverText hkey (fun peer hpeer => (hpeers peer hpeer).1)
    fun peer hpeer => (hpeers peer hpeer).oneLine

theorem ServerIdentity.Writes.append {text : String} {peer : Peer} (hwrites : i.Writes text)
    (hpeer : peer.IsOwn) : i.Writes (text ++ peerBlock peer) := by
  obtain ⟨peers, hpeers, rfl⟩ := hwrites
  refine ⟨peers ++ [peer], ?_, ?_⟩
  · intro other hother
    rcases List.mem_append.mp hother with hold | hnew
    · exact hpeers other hold
    · rw [List.mem_singleton.mp hnew]
      exact hpeer
  · simp [serverText, String.append_assoc]

/-- What a removal writes. -/
theorem ServerIdentity.Writes.rewrite {text : String} {peers : List Peer} (hwrites : i.Writes text)
    (hkey : IsKeyText i.privateKey) (hpeers : ∀ peer ∈ peers, peer.IsOwn) :
    i.Writes (String.join (serverConfigHeader text :: peers.map peerBlock)) := by
  obtain ⟨old, -, rfl⟩ := hwrites
  rw [serverConfigHeader_serverText hkey]
  exact ⟨peers, hpeers, rfl⟩

/-- Less of the same. -/
theorem ServerHost.Holds.less (hholds : h.Holds derive identity)
    (hexists : h'.fileExists = h.fileExists)
    (hfile : h'.world.wg.serverConfig = h.world.wg.serverConfig)
    (hpeers : h'.world.db.peers ⊆ h.world.db.peers)
    (hclients : h'.world.wg.clientFiles ⊆ h.world.wg.clientFiles)
    (hreplies : h'.replies = h.replies) : h'.Holds derive identity where
  fileExists := hexists.trans hholds.fileExists
  file := by
    rw [hfile]
    exact hholds.file
  peers := fun peer hpeer => hholds.peers peer (hpeers hpeer)
  clients := fun file hfile => hholds.clients file (hclients hfile)
  replies := by
    rw [hreplies]
    exact hholds.replies

/-- The rows of peers are the business of two calls. -/
theorem Db.peers_exec {db : Db} {op : DbOp} {peer : Peer} (hpeer : peer ∈ (op.exec db).2.peers) :
    peer ∈ db.peers ∨ ∃ owner username publicKey candidateIps privateKey,
      op = .allocatePeer owner username publicKey candidateIps privateKey ∧
        peer.username = username ∧ peer.publicKey = publicKey := by
  cases op with
  | allocatePeer owner username publicKey candidateIps privateKey =>
    simp only [DbOp.exec, allocatePeer_eq] at hpeer
    cases hip : db.firstFreeIp candidateIps with
    | none =>
      simp only [hip] at hpeer
      exact .inl hpeer
    | some ip =>
      cases hold : db.getPeer username with
      | some old =>
        simp only [hip, hold] at hpeer
        exact .inl hpeer
      | none =>
        simp only [hip, hold] at hpeer
        rcases List.mem_append.mp hpeer with hmem | hnew
        · exact .inl hmem
        · rw [List.mem_singleton.mp hnew]
          exact .inr ⟨owner, username, publicKey, candidateIps, privateKey, rfl, rfl, rfl⟩
  | removePeer username => exact .inl (List.mem_of_mem_filter hpeer)
  | allocateOctet owner =>
    simp only [DbOp.exec, allocateOctet_eq] at hpeer
    left
    cases hown : db.getOctet owner with
    | some octet => simpa [hown] using hpeer
    | none => cases hfree : db.firstFreeOctet <;> simpa [hown, hfree] using hpeer
  | addInstance row =>
    left
    rcases db.addInstance_cases row with ⟨heq, -⟩ | ⟨msg, heq⟩
    · simpa only [DbOp.exec, heq] using hpeer
    · simpa only [DbOp.exec, heq] using hpeer
  | _ => exact .inl hpeer

theorem Db.allocated_exec {db : Db} {owner : Owner} {username publicKey : String}
    {candidateIps : List IPv4Address} {privateKey : Option String} {peer : Peer}
    (hallocated : (db.allocatePeer owner username publicKey candidateIps privateKey).1 = .ok peer) :
    peer.username = username ∧ peer.publicKey = publicKey := by
  rw [allocatePeer_eq] at hallocated
  cases hip : db.firstFreeIp candidateIps with
  | none =>
    simp only [hip] at hallocated
    cases hallocated
  | some ip =>
    cases hold : db.getPeer username with
    | some old =>
      simp only [hip, hold] at hallocated
      cases hallocated
    | none =>
      simp only [hip, hold] at hallocated
      cases hallocated
      exact ⟨rfl, rfl⟩

theorem learns_of_holds {w' : World} {choice : op.Choice} (hholds : h.Holds derive identity)
    (hanswers : h.answers derive op choice) (hexec : op.exec h.world choice = some (res, w')) :
    learns derive identity op res := by
  have hsome : h.fileExists = true → ∃ i ∈ identity, IsKeyText i.privateKey ∧
      i.Writes h.world.wg.serverConfig := by
    intro hexists
    rw [hholds.fileExists] at hexists
    obtain ⟨i, hi⟩ := Option.isSome_iff_exists.mp hexists
    exact ⟨i, hi, hholds.file i hi⟩
  cases op with
  | wg op =>
    cases hexec
    cases op with
    | genkey | pubkey privateKey => exact hanswers
    | parseInterfaceSection =>
      intro options hoptions
      obtain ⟨hexists, hparsed⟩ := hanswers options hoptions
      obtain ⟨i, hi, hkey, hwrites⟩ := hsome hexists
      rw [hwrites.parsed hkey] at hparsed
      exact ⟨i, hi, (Except.ok.inj hparsed).symm⟩
    | readServerConfig =>
      intro text htext
      cases choice with
      | some err => cases htext
      | none =>
        cases htext
        exact hsome (hanswers rfl)
    | _ => trivial
  | db op =>
    cases hexec
    cases op with
    | getAllPeers => exact fun peer hpeer => (hholds.peers peer hpeer).1
    | allocatePeer owner username publicKey candidateIps privateKey =>
      exact fun peer hpeer => Db.allocated_exec hpeer
    | _ => trivial
  | docker op | filter op | host op => trivial

/-- A client file that is written, in part or as a whole. -/
theorem begins_withClientFile {files : List (String × String)} {username text : String}
    (hbegins : ∃ i ∈ identity, i.Begins derive text)
    (hfiles : ∀ file ∈ files, ∃ i ∈ identity, i.Begins derive file.2) :
    ∀ file ∈ withClientFile files username text, ∃ i ∈ identity, i.Begins derive file.2 := by
  intro file hfile
  rcases List.mem_append.mp hfile with hold | hnew
  · exact hfiles file (List.mem_of_mem_filter hold)
  · rw [List.mem_singleton.mp hnew]
    exact hbegins

theorem holds_exec {w' : World} {choice : op.Choice} (hholds : h.Holds derive identity)
    (hanswers : h.answers derive op choice) (hcall : keepsIdentity derive identity op)
    (hexec : op.exec h.world choice = some (res, w')) :
    ServerHost.Holds derive identity
      ⟨w', h.fileExists || createsServerConfig op choice, h.replies⟩ := by
  cases op with
  | db op =>
    cases hexec
    refine ⟨?_, hholds.file, ?_, hholds.clients, hholds.replies⟩
    · rw [← hholds.fileExists]
      exact Bool.or_false _
    · intro peer hpeer
      rcases Db.peers_exec hpeer with hold |
        ⟨owner, username, publicKey, ips, key, rfl, hname, hpublic⟩
      · exact hholds.peers peer hold
      · obtain ⟨hsome, hkey, userId, hown⟩ := hcall
        refine ⟨⟨?_, userId, hname.trans hown⟩, hsome⟩
        rw [hpublic]
        exact hkey
  | wg op =>
    cases hexec
    have hless : ∀ wg' : Wg, wg'.serverConfig = h.world.wg.serverConfig →
        wg'.clientFiles ⊆ h.world.wg.clientFiles →
        ServerHost.Holds derive identity ⟨{ h.world with wg := wg' }, h.fileExists || false,
          h.replies⟩ :=
      fun wg' hfile hclients => hholds.less (Bool.or_false _) hfile (List.Subset.refl _) hclients rfl
    cases op with
    | genkey | pubkey privateKey | parseInterfaceSection =>
      exact hless _ rfl (List.Subset.refl _)
    | readServerConfig | mkClientsDir | chmodClientFile username | setPeer publicKey ip
    | removeLivePeer publicKey =>
      cases choice <;> exact hless _ rfl (List.Subset.refl _)
    | unlinkClientFile username =>
      cases choice with
      | some err => exact hless _ rfl (List.Subset.refl _)
      | none => exact hless _ rfl fun file hfile => List.mem_of_mem_filter hfile
    | appendServerConfig block =>
      obtain ⟨hsome, peer, hpeer, rfl⟩ := hcall
      have hexists : ∀ opened : Bool, (h.fileExists || opened) = identity.isSome := by
        intro opened
        rw [hholds.fileExists, hsome]
        exact Bool.true_or _
      cases choice with
      | some fault =>
        refine hholds.less ((hexists _).trans hholds.fileExists.symm) ?_ (List.Subset.refl _)
          (List.Subset.refl _) rfl
        show fault.appended h.world.wg.serverConfig (peerBlock peer) = _
        rw [WriteFault.appended, hanswers fault rfl]
        simp [textTaken]
      | none =>
        refine ⟨hexists _, ?_, hholds.peers, hholds.clients, hholds.replies⟩
        intro i hi
        obtain ⟨hkey, hwrites⟩ := hholds.file i hi
        exact ⟨hkey, hwrites.append hpeer⟩
    | writeServerConfig text =>
      cases choice with
      | some fault =>
        have hunopened : fault.written = none := hanswers fault rfl
        refine hholds.less ?_ ?_ (List.Subset.refl _) (List.Subset.refl _) rfl
        · show (h.fileExists || fault.written.isSome) = _
          rw [hunopened]
          exact Bool.or_false _
        · show fault.rewritten h.world.wg.serverConfig text = _
          rw [WriteFault.rewritten, hunopened]
      | none =>
        obtain ⟨i, hi, hwrites⟩ := hcall
        refine ⟨?_, ?_, hholds.peers, hholds.clients, hholds.replies⟩
        · rw [Option.mem_def.mp hi]
          exact Bool.or_true _
        · intro other hother
          obtain rfl : i = other := Option.mem_unique hi hother
          exact ⟨(hholds.file i hi).1, hwrites⟩
    | writeClientFile username text =>
      obtain ⟨i, hi, hconfigures⟩ := hcall
      have hclient : ∀ wg' : Wg, wg'.serverConfig = h.world.wg.serverConfig →
          (∀ file ∈ wg'.clientFiles, ∃ i ∈ identity, i.Begins derive file.2) →
          ServerHost.Holds derive identity ⟨{ h.world with wg := wg' }, h.fileExists || false,
            h.replies⟩ := by
        intro wg' hfile hclients
        refine ⟨(Bool.or_false _).trans hholds.fileExists, ?_, hholds.peers, hclients,
          hholds.replies⟩
        rw [hfile]
        exact hholds.file
      cases choice with
      | some fault =>
        refine hclient { h.world.wg with
          clientFiles := fault.clientFiles h.world.wg.clientFiles username text } rfl ?_
        show ∀ file ∈ fault.clientFiles h.world.wg.clientFiles username text, _
        unfold WriteFault.clientFiles
        split
        · exact hholds.clients
        · rename_i n _
          refine begins_withClientFile ⟨i, hi, text, hconfigures, ?_⟩ hholds.clients
          rw [textTaken, String.toList_ofList]
          exact List.take_prefix n text.toList
      | none =>
        refine hclient { h.world.wg with
          clientFiles := withClientFile h.world.wg.clientFiles username text } rfl ?_
        exact begins_withClientFile ⟨i, hi, text, hconfigures, List.prefix_refl _⟩ hholds.clients
  | docker op | filter op =>
    cases hexec
    exact hholds.less (Bool.or_false _) rfl (List.Subset.refl _) (List.Subset.refl _) rfl
  | host op =>
    obtain ⟨result, -, hresult⟩ := Option.map_eq_some_iff.mp hexec
    cases hresult
    exact hholds.less (Bool.or_false _) rfl (List.Subset.refl _) (List.Subset.refl _) rfl

/-- **One call of a handler.** -/
theorem ServerHost.Holds.step (hholds : h.Holds derive identity)
    (hcall : keepsIdentity derive identity op) (hsem : handlerSem derive h op res h') :
    learns derive identity op res ∧ h'.Holds derive identity := by
  obtain ⟨choice, hanswers, hexec, hexists, hreplies⟩ := hsem
  refine ⟨learns_of_holds hholds hanswers hexec, ?_⟩
  have hafter := holds_exec hholds hanswers hcall hexec
  rw [← hexists, ← hreplies] at hafter
  exact hafter

end Steps

/-! ## The handlers -/

/-- The calls that every identity allows. -/
def sparesServer : DaemonOp → Prop
  | .wg (.appendServerConfig _) | .wg (.writeServerConfig _) | .wg (.writeClientFile ..) => False
  | .db (.allocatePeer ..) => False
  | _ => True

section Handlers

variable {derive : String → String} {identity : Option ServerIdentity} {env : DaemonEnv}
  {α β : Type}

theorem keepsIdentity_of_sparesServer {op : DaemonOp} (h : sparesServer op) :
    keepsIdentity derive identity op := by
  cases op with
  | db op => cases op <;> trivial
  | wg op => cases op <;> trivial
  | docker op | filter op | host op => trivial

theorem sparesServer_of_containerSide (op : DaemonOp) (h : containerSide op) : sparesServer op := by
  cases op with
  | db op => cases op <;> trivial
  | docker op | host op => trivial
  | wg op | filter op => exact h.elim

theorem sparesServer_of_filterCall (op : DaemonOp) (h : filterCall op) : sparesServer op := by
  cases op with
  | filter op => trivial
  | _ => exact h.elim

theorem sparesServer_rebuildFirewall : CallsOnly sparesServer (rebuildFirewall env) := by
  apply CallsOnly.bind (.perform trivial)
  intro peersByOwner
  apply CallsOnly.bind (.perform trivial)
  intro rows
  exact .bind (callsOnly_applyFirewall.mono sparesServer_of_filterCall) fun _ => .ret

theorem sparesServer_restart : CallsOnly sparesServer (restart env) :=
  callsOnly_restart_of sparesServer_of_containerSide sparesServer_rebuildFirewall

/-- A piece of code that learns this and keeps the identity. -/
abbrev KeepsIdentity (derive : String → String) (identity : Option ServerIdentity) (p : Daemon α)
    (Q : α → Prop) : Prop :=
  Conforms (E := daemonEffect) (fun (_ : Unit) op res => learns derive identity op res)
    (fun _ op => keepsIdentity derive identity op) (fun _ _ _ => ()) p
    (returning fun value _ => Q value) ()

theorem KeepsIdentity.bind {p : Daemon β} {f : β → Daemon α} {P : β → Prop} {Q : α → Prop}
    (hp : KeepsIdentity derive identity p P)
    (hf : ∀ value, P value → KeepsIdentity derive identity (f value) Q) :
    KeepsIdentity derive identity (p >>= f) Q :=
  Conforms.bind hp fun value _ hvalue => hf value hvalue

theorem KeepsIdentity.spares {p : Daemon α} (hp : CallsOnly sparesServer p) :
    KeepsIdentity derive identity p fun _ => True := by
  induction hp with
  | ret => trivial
  | raise => trivial
  | call hop _ ih => exact Conforms.call (keepsIdentity_of_sparesServer hop) fun res _ => ih res

theorem KeepsIdentity.ofExcept {result : Except PyErr α} {Q : α → Prop}
    (h : ∀ value, result = .ok value → Q value) :
    KeepsIdentity derive identity (Prog.ofExcept result) Q := by
  cases result with
  | ok value => exact h value rfl
  | error err => trivial

theorem keepsIdentity_wgOutput {what : String} {result : Except CmdFault String} {Q : String → Prop}
    (h : ∀ text, result = .ok text → Q text) :
    KeepsIdentity derive identity (wgOutput what result) Q := by
  unfold wgOutput
  cases result with
  | ok text => exact h text rfl
  | error err => cases err <;> trivial

theorem keepsIdentity_generateKeypair : KeepsIdentity derive identity generateKeypair fun pair =>
    IsKeyText pair.privateKey ∧ pair.publicKey = derive pair.privateKey := by
  apply Conforms.perform trivial
  intro priv hpriv
  apply KeepsIdentity.bind (keepsIdentity_wgOutput hpriv)
  intro privateKey hprivate
  apply Conforms.perform trivial
  intro pub hpub
  apply KeepsIdentity.bind (keepsIdentity_wgOutput hpub)
  exact fun publicKey hpublic => ⟨hprivate, hpublic⟩

/-- What the file says is the identity. -/
theorem keepsIdentity_loadServerConfig {endpoint : String} {port : Nat} :
    KeepsIdentity derive identity (loadServerConfig endpoint port) fun server =>
      ∃ i ∈ identity, server = ⟨i.privateKey, derive i.privateKey, endpoint, port⟩ := by
  apply Conforms.perform trivial
  intro parsed hparsed
  apply KeepsIdentity.bind (KeepsIdentity.ofExcept hparsed)
  rintro _ ⟨i, hi, rfl⟩
  have hlookup : ((interfaceSection i.port i.privateKey).lookup "PrivateKey").getD "" =
      i.privateKey := by
    simp [interfaceSection, List.lookup]
  dsimp only
  rw [hlookup]
  apply Conforms.ite
  · trivial
  · apply KeepsIdentity.bind (P := fun publicKey => publicKey = derive i.privateKey)
    · apply Conforms.perform trivial
      exact fun pub hpub => keepsIdentity_wgOutput hpub
    · rintro publicKey rfl
      exact ⟨i, hi, rfl⟩

variable {peer : Peer} {server : ServerConfig} {userId : Int} {owner : Owner}

theorem keepsIdentity_publishPeer (hpeer : peer.IsOwn) (hserver : ∃ i ∈ identity,
    ∃ endpoint port, server = ⟨i.privateKey, derive i.privateKey, endpoint, port⟩) :
    KeepsIdentity derive identity (publishPeer peer server) fun _ => True := by
  obtain ⟨i, hi, endpoint, port, rfl⟩ := hserver
  have hsome : identity.isSome = true := by
    rw [Option.mem_def.mp hi]
    rfl
  have hdone : ∀ result : Except PyErr Unit,
      KeepsIdentity derive identity (Prog.ofExcept result) fun _ => True :=
    fun result => KeepsIdentity.ofExcept fun _ _ => trivial
  apply KeepsIdentity.bind (P := fun _ => True)
  · apply Conforms.perform (by exact ⟨hsome, peer, hpeer, rfl⟩)
    exact fun appended _ => hdone appended
  intro _ _
  apply KeepsIdentity.bind (P := fun _ => True)
  · exact KeepsIdentity.spares (.bind (.perform trivial) fun _ => callsOnly_loggedWg)
  intro _ _
  apply Conforms.perform trivial
  intro made _
  apply KeepsIdentity.bind (hdone made)
  intro _ _
  apply Conforms.perform (by exact ⟨i, hi, peer, endpoint, port, rfl⟩)
  intro written _
  apply KeepsIdentity.bind (hdone written)
  intro _ _
  apply Conforms.perform trivial
  intro protected_ _
  exact KeepsIdentity.bind (hdone protected_) fun _ _ => trivial

theorem keepsIdentity_addPeer (hderive : ∀ key, IsKeyText (derive key)) (hserver : ∃ i ∈ identity,
    ∃ endpoint port, server = ⟨i.privateKey, derive i.privateKey, endpoint, port⟩) :
    KeepsIdentity derive identity (addPeer owner (usernameOf userId) server none)
      fun _ => True := by
  have hsome : identity.isSome = true := by
    obtain ⟨i, hi, -⟩ := hserver
    rw [Option.mem_def.mp hi]
    rfl
  apply KeepsIdentity.bind (P := fun keys => IsKeyText keys.1)
  · apply KeepsIdentity.bind keepsIdentity_generateKeypair
    rintro pair ⟨-, hpublic⟩
    show IsKeyText pair.publicKey
    rw [hpublic]
    exact hderive pair.privateKey
  intro keys hkeys
  apply Conforms.perform (by exact ⟨hsome, hkeys, userId, rfl⟩)
  intro allocated hallocated
  apply KeepsIdentity.bind (KeepsIdentity.ofExcept hallocated)
  rintro peer ⟨hname, hpublic⟩
  have hpeer : peer.IsOwn := by
    refine ⟨?_, userId, hname⟩
    rw [hpublic]
    exact hkeys
  apply KeepsIdentity.bind (P := fun _ => True)
  · apply wp_catching.mpr
    apply wp_mono (keepsIdentity_publishPeer hpeer hserver)
    intro out _ _
    cases out with
    | ok text => trivial
    | error err =>
      apply Conforms.perform trivial
      exact fun removed _ => trivial
  · exact fun _ _ => trivial

theorem keepsIdentity_rewriteServerConfig {excludeUsername : String} :
    KeepsIdentity derive identity (rewriteServerConfig excludeUsername) fun _ => True := by
  apply Conforms.perform trivial
  intro content hcontent
  apply KeepsIdentity.bind (KeepsIdentity.ofExcept hcontent)
  rintro text ⟨i, hi, hkey, hwrites⟩
  apply Conforms.perform trivial
  intro peers hpeers
  have hothers : ∀ peer ∈ peers.filter fun p => p.username ≠ excludeUsername, Peer.IsOwn peer :=
    fun peer hpeer => hpeers peer (List.mem_of_mem_filter hpeer)
  have hrewrite := hwrites.rewrite hkey hothers
  apply Conforms.perform (by exact ⟨i, hi, hrewrite⟩)
  exact fun written _ => KeepsIdentity.ofExcept fun _ _ => trivial

theorem keepsIdentity_removePeer {username : String} :
    KeepsIdentity derive identity (removePeer username) fun _ => True := by
  apply Conforms.perform trivial
  intro found _
  cases found with
  | none => trivial
  | some peer =>
    apply Conforms.perform trivial
    intro removed _
    apply KeepsIdentity.bind (KeepsIdentity.spares callsOnly_loggedWg)
    intro _ _
    apply KeepsIdentity.bind keepsIdentity_rewriteServerConfig
    intro _ _
    apply Conforms.perform trivial
    intro _ _
    apply Conforms.perform trivial
    intro unlinked _
    exact KeepsIdentity.bind (KeepsIdentity.ofExcept (Q := fun _ => True) fun _ _ => trivial)
      fun _ _ => trivial

/-- A handler that tells nothing of the server. -/
theorem keepsIdentity_containerHandler {request : Request} (hpeers : request.ofPeers = false) :
    KeepsIdentity derive identity (handle env request) (ServerIdentity.Tells derive identity) := by
  have hrebuild : ∀ {reply : Reply}, ServerIdentity.Tells derive identity reply →
      KeepsIdentity derive identity (rebuildFirewall env >>= fun _ => .ret reply)
        (ServerIdentity.Tells derive identity) :=
    fun hreply => KeepsIdentity.bind (KeepsIdentity.spares sparesServer_rebuildFirewall)
      fun _ _ => hreply
  cases request with
  | ping => trivial
  | wgEnsurePeer _ _ | wgRemovePeer _ | wgRenderConfig _ => cases hpeers
  | containerEnsureInstance owner challengeRef buildPath security ttlSeconds publishPorts =>
    apply KeepsIdentity.bind
      (KeepsIdentity.spares (containerSide_spawnInstance.mono sparesServer_of_containerSide))
    intro result _
    apply KeepsIdentity.bind (KeepsIdentity.spares callsOnly_spawnedInstance)
    exact fun row _ => hrebuild trivial
  | containerReleaseInstance containerId =>
    apply KeepsIdentity.bind
      (KeepsIdentity.spares (containerSide_releaseInstance.mono sparesServer_of_containerSide))
    exact fun removed _ => hrebuild trivial
  | containerReconcile =>
    apply KeepsIdentity.bind
      (KeepsIdentity.spares (containerSide_reconcile.mono sparesServer_of_containerSide))
    exact fun pruned _ => Conforms.perform trivial fun rows _ => trivial
  | containerInspect containerId =>
    apply Conforms.perform trivial
    intro rows _
    split <;> trivial
  | killSwitch =>
    apply KeepsIdentity.bind
      (KeepsIdentity.spares (containerSide_teardownAll.mono sparesServer_of_containerSide))
    exact fun count _ => hrebuild trivial

/-- **Every handler keeps the identity**, and tells it. -/
theorem keepsIdentity_handle (hderive : ∀ key, IsKeyText (derive key)) {request : Request} :
    KeepsIdentity derive identity (handle env request) (ServerIdentity.Tells derive identity) := by
  cases request with
  | wgEnsurePeer userId owner =>
    apply Conforms.perform trivial
    intro existing _
    cases existing with
    | none =>
      apply KeepsIdentity.bind keepsIdentity_loadServerConfig
      rintro _ ⟨i, hi, rfl⟩
      apply KeepsIdentity.bind (keepsIdentity_addPeer hderive ⟨i, hi, _, _, rfl⟩)
      intro clientCfg _
      apply KeepsIdentity.bind (KeepsIdentity.spares sparesServer_rebuildFirewall)
      exact fun _ _ => ⟨i, hi, rfl⟩
    | some peer =>
      apply KeepsIdentity.bind keepsIdentity_loadServerConfig
      rintro _ ⟨i, hi, rfl⟩
      exact ⟨i, hi, rfl⟩
  | wgRemovePeer userId =>
    apply KeepsIdentity.bind keepsIdentity_removePeer
    intro removed _
    apply Conforms.ite
    · exact KeepsIdentity.bind (KeepsIdentity.spares sparesServer_rebuildFirewall) fun _ _ => trivial
    · trivial
  | wgRenderConfig userId =>
    apply Conforms.perform trivial
    intro found _
    cases found with
    | none => trivial
    | some peer =>
      apply KeepsIdentity.bind keepsIdentity_loadServerConfig
      rintro _ ⟨i, hi, rfl⟩
      exact ⟨i, hi, peer, _, _, rfl⟩
  | _ => exact keepsIdentity_containerHandler rfl

end Handlers

/-! ## The process -/

/-- The calls of the daemon that an identity allows. -/
def tells (derive : String → String) (identity : Option ServerIdentity) :
    (daemonEffect.sum startEffect).Op → Prop
  | .inl op => keepsIdentity derive identity op
  | .inr (.answer reply) => ServerIdentity.Tells derive identity reply
  | .inr _ => True

/-- What the daemon learns from an answer. -/
def hears (derive : String → String) (identity : Option ServerIdentity) :
    (op : (daemonEffect.sum startEffect).Op) → (daemonEffect.sum startEffect).Res op → Prop
  | .inl op, res => learns derive identity op res
  | .inr _, _ => True

/-- The calls of the daemon that every identity allows. -/
def sparesHost : (daemonEffect.sum startEffect).Op → Prop
  | .inl op => sparesServer op
  | .inr (.answer _) => False
  | .inr _ => True

/-- The host has the identity, if there is one; it may have got one. -/
def ServerHost.Keeps (derive : String → String) (identity : Option ServerIdentity)
    (h : ServerHost) : Prop :=
  ∃ identity' : Option ServerIdentity, (∀ i ∈ identity, i ∈ identity') ∧ h.Holds derive identity'

section Process

variable {derive : String → String} {identity : Option ServerIdentity} {env : DaemonEnv}
  {h h₀ h' : ServerHost} {α : Type}

theorem ServerHost.Holds.keeps (hholds : h.Holds derive identity) : h.Keeps derive identity :=
  ⟨identity, fun _ hi => hi, hholds⟩

/-- What is kept and then kept again is kept. -/
theorem ServerHost.Keeps.trans (hkeeps : h.Keeps derive identity)
    (hnext : ∀ identity', h.Holds derive identity' → h'.Keeps derive identity') :
    h'.Keeps derive identity := by
  obtain ⟨identity₁, hsame, hholds₁⟩ := hkeeps
  obtain ⟨identity₂, hsame', hholds₂⟩ := hnext identity₁ hholds₁
  exact ⟨identity₂, fun i hi => hsame' i (hsame i hi), hholds₂⟩

theorem ServerHost.Fresh.holds (hfresh : h.Fresh) : h.Holds derive none where
  fileExists := hfresh.fileExists
  file := fun _ hi => nomatch hi
  peers := by
    rw [hfresh.peers]
    exact fun _ hpeer => nomatch hpeer
  clients := by
    rw [hfresh.clients]
    exact fun _ hfile => nomatch hfile
  replies := by
    rw [hfresh.replies]
    exact fun _ hreply => nomatch hreply

theorem ServerHost.Holds.said {reply : Reply} (hholds : h.Holds derive identity)
    (hreply : ServerIdentity.Tells derive identity reply) :
    ServerHost.Holds derive identity { h with replies := h.replies ++ [reply] } where
  fileExists := hholds.fileExists
  file := hholds.file
  peers := hholds.peers
  clients := hholds.clients
  replies := by
    intro other hother
    rcases List.mem_append.mp hother with hold | hnew
    · exact hholds.replies other hold
    · rw [List.mem_singleton.mp hnew]
      exact hreply

/-- **One call of the daemon.** -/
theorem holds_hostStep {op : (daemonEffect.sum startEffect).Op}
    {res : (daemonEffect.sum startEffect).Res op} (hholds : h.Holds derive identity)
    (hcall : tells derive identity op) (hsem : hostSem derive h op res h') :
    hears derive identity op res ∧ h'.Holds derive identity := by
  cases op with
  | inl op => exact hholds.step hcall hsem
  | inr op =>
    refine ⟨trivial, ?_⟩
    cases op with
    | mkConfigDir | chmodServerConfig | wgQuickUp =>
      rw [show h' = h from hsem]
      exact hholds
    | serverConfigExists =>
      obtain ⟨-, rfl⟩ := hsem
      exact hholds
    | answer reply =>
      rw [show h' = { h with replies := h.replies ++ [reply] } from hsem]
      exact hholds.said hcall

theorem tells_of_sparesHost {op : (daemonEffect.sum startEffect).Op} (hop : sparesHost op) :
    tells derive identity op := by
  cases op with
  | inl op => exact keepsIdentity_of_sparesServer hop
  | inr op => cases op with
    | answer reply => exact hop.elim
    | _ => trivial

/-- A part of the daemon that every identity allows. -/
theorem wp_sparesHost {p : Start α} (hp : CallsOnly sparesHost p)
    (hkeeps : h.Keeps derive identity) :
    wp (hostSem derive) (fun h _ => h.Keeps derive identity) p
      (fun _ h' => h'.Keeps derive identity) h := by
  apply hp.preserves _ hkeeps
  intro h op res h' hop hkeeps hsem
  apply hkeeps.trans
  exact fun _ hholds => (holds_hostStep hholds (tells_of_sparesHost hop) hsem).2.keeps

/-! ### Serving -/

theorem conforms_callDaemon {p : Daemon α} {Q : α → Prop} (hp : KeepsIdentity derive identity p Q) :
    Conforms (fun (_ : Unit) => hears derive identity) (fun _ => tells derive identity)
      (fun _ _ _ => ()) (Start.callDaemon p) (returning fun value _ => Q value) () := by
  apply Conforms.first
  apply wp_mono hp
  intro out phase hout
  rw [translated_id]
  exact hout

theorem conforms_serve (hderive : ∀ key, IsKeyText (derive key)) {request : Request} :
    Conforms (fun (_ : Unit) => hears derive identity) (fun _ => tells derive identity)
      (fun _ _ _ => ()) (Start.serve env request) (fun _ _ => True) () := by
  apply Conforms.andThen (conforms_callDaemon (keepsIdentity_handle hderive))
  · intro reply _ hreply
    exact Conforms.call hreply fun _ _ => trivial
  · exact fun _ _ _ => trivial

/-- A process that serves, at any point. -/
theorem holds_serving (hderive : ∀ key, IsKeyText (derive key)) {requests : List Request}
    {permits : Nat} {c : Config (daemonEffect.sum startEffect) PyErr Unit ServerHost}
    (hholds : h.Holds derive identity)
    (hreach : Reach (hostSem derive) (fun _ _ _ => ()) (fun _ _ _ => True)
      (startServing env requests permits h) c) : c.world.Holds derive identity := by
  have hkeeps : ∀ (h : ServerHost) (phases : List Unit) (tid : Nat) (phase : Unit)
      (op : (daemonEffect.sum startEffect).Op) (res : (daemonEffect.sum startEffect).Res op)
      (h' : ServerHost), h.Holds derive identity → phases[tid]? = some phase →
      tells derive identity op → hostSem derive h op res h' → True →
      hears derive identity op res ∧ h'.Holds derive identity :=
    fun h _ _ _ op res h' hholds _ hcall hsem _ => holds_hostStep hholds hcall hsem
  have hconf : ∀ thread ∈ (startServing env requests permits h).threads,
      Conforms (fun (_ : Unit) => hears derive identity) (fun _ => tells derive identity)
        (fun _ _ _ => ()) thread.prog (fun _ _ => True) thread.phase := by
    intro thread hthread
    obtain ⟨request, -, rfl⟩ := List.mem_map.mp hthread
    exact conforms_serve hderive
  have hinit : (startServing env requests permits h).world.Holds derive identity :=
    hholds.less rfl rfl (List.Subset.refl _) (List.Subset.refl _) rfl
  exact (reach_invariant (J := fun h _ => h.Holds derive identity) hkeeps hconf hinit hreach).1

/-! ### Starting -/

/-- The file that the first start writes. -/
theorem holds_created {port : Nat} {key : String} {res : Except PyErr Unit} (hkey : IsKeyText key)
    (hholds : h.Holds derive none)
    (hsem : handlerSem derive h (.wg (.writeServerConfig (initServerContents port key))) res h') :
    h'.Keeps derive none := by
  obtain ⟨fault, hanswers, hexec, hexists, hreplies⟩ := hsem
  have hnothing : ∀ {i : ServerIdentity} {P : Prop}, i ∈ (none : Option ServerIdentity) → P :=
    fun hi => nomatch hi
  obtain ⟨w', found, replies⟩ := h'
  cases fault with
  | some fault =>
    have hunopened : fault.written = none := hanswers fault rfl
    cases hexec
    refine ⟨none, fun _ hi => hi, hholds.less ?_ ?_ (List.Subset.refl _) (List.Subset.refl _)
      hreplies⟩
    · refine hexists.trans ?_
      show (h.fileExists || fault.written.isSome) = _
      rw [hunopened]
      exact Bool.or_false _
    · show fault.rewritten h.world.wg.serverConfig _ = _
      rw [WriteFault.rewritten, hunopened]
  | none =>
    cases hexec
    refine ⟨some ⟨port, key⟩, fun _ hi => hnothing hi, ?_, ?_, ?_, ?_, ?_⟩
    · exact hexists.trans (Bool.or_true _)
    · intro i hi
      cases hi
      refine ⟨hkey, [], fun _ hpeer => (List.not_mem_nil hpeer).elim, ?_⟩
      show initServerContents port key = serverText port key []
      simp [serverText, String.join]
    · exact fun peer hpeer => ⟨(hholds.peers peer hpeer).1, rfl⟩
    · intro file hfile
      obtain ⟨i, hi, -⟩ := hholds.clients file hfile
      exact hnothing hi
    · intro reply hreply
      rw [show replies = h.replies from hreplies] at hreply
      have htells := hholds.replies reply hreply
      cases reply with
      | peer data => exact htells.elim fun i hi => hnothing hi.1
      | config text => exact htells.elim fun i hi => hnothing hi.1
      | _ => trivial

/-- The first start, which chooses the identity. -/
theorem wp_createServer {endpoint : String} {port : Nat} (hholds : h.Holds derive none) :
    wp (hostSem derive) (fun h _ => h.Keeps derive none) (Start.createServer endpoint port)
      (fun _ h' => h'.Keeps derive none) h := by
  have hstep : ∀ (h : ServerHost) (_ : Unit) (op : (daemonEffect.sum startEffect).Op)
      (res : (daemonEffect.sum startEffect).Res op) (h' : ServerHost), h.Holds derive none →
      tells derive none op → hostSem derive h op res h' →
      hears derive none op res ∧ h'.Holds derive none :=
    fun _ _ _ _ _ hholds hcall hsem => holds_hostStep hholds hcall hsem
  have hkeypair := Conforms.keeps (J := fun (h : ServerHost) (_ : Unit) => h.Holds derive none)
    (conforms_callDaemon keepsIdentity_generateKeypair) hstep hholds
  apply wp_bind.mpr
  apply wp_mono (wp_guard_mono hkeypair fun h _ hh => hh.elim fun _ hholds => hholds.keeps)
  rintro (err | pair) h₁ ⟨_, hholds₁, hpair⟩
  · exact hholds₁.keeps
  refine ⟨hholds₁.keeps, ?_⟩
  intro written h₂ hwrite
  have hkeeps := holds_created hpair.1 hholds₁ hwrite
  refine wp_sparesHost ?_ hkeeps
  apply CallsOnly.bind CallsOnly.ofExcept
  intro _
  apply CallsOnly.bind (.perform trivial)
  intro protected_
  exact CallsOnly.bind CallsOnly.ofExcept fun _ => .ret

theorem sparesServer_loadServerConfig {endpoint : String} {port : Nat} :
    CallsOnly sparesServer (loadServerConfig endpoint port) := by
  have houtput : ∀ {what : String} {result : Except CmdFault String},
      CallsOnly sparesServer (wgOutput what result) := by
    intro what result
    unfold wgOutput
    cases result with
    | ok text => exact .ret
    | error err => cases err <;> exact .raise
  apply CallsOnly.bind (.perform trivial)
  intro parsed
  apply CallsOnly.bind CallsOnly.ofExcept
  intro iface
  apply CallsOnly.ite .raise
  exact .bind (.bind (.perform trivial) fun _ => houtput) fun _ => .ret

theorem sparesHost_callDaemon {p : Daemon α} (hp : CallsOnly sparesServer p) :
    CallsOnly sparesHost (Start.callDaemon p) :=
  CallsOnly.first hp

theorem sparesHost_bringUp : CallsOnly sparesHost Start.bringUp := by
  apply CallsOnly.bind (.perform trivial)
  intro raised
  split
  · exact .ret
  · exact .ite .ret .raise
  · exact .raise

theorem wp_initServer {endpoint : String} {port : Nat} (hkeeps : h.Keeps derive identity) :
    wp (hostSem derive) (fun h _ => h.Keeps derive identity) (Start.initServer endpoint port)
      (fun _ h' => h'.Keeps derive identity) h := by
  refine ⟨hkeeps, ?_⟩
  rintro made _ rfl
  cases made with
  | error err => exact hkeeps
  | ok made =>
    refine ⟨hkeeps, ?_⟩
    rintro found _ ⟨hfound, rfl⟩
    cases found with
    | error err => exact hkeeps
    | ok exists_ =>
      cases exists_ with
      | true => exact wp_sparesHost (sparesHost_callDaemon sparesServer_loadServerConfig) hkeeps
      | false =>
        obtain ⟨identity', hsame, hholds⟩ := hkeeps
        have hnone : identity' = none := by
          rw [← Option.not_isSome_iff_eq_none, ← hholds.fileExists, ← hfound false rfl]
          exact Bool.false_ne_true
        subst hnone
        have hfresh : identity = none := Option.eq_none_iff_forall_not_mem.mpr
          fun i hi => nomatch hsame i hi
        rw [hfresh]
        exact wp_createServer hholds

/-- **A start of the daemon**, interrupted anywhere. -/
theorem keeps_boot (hholds : h.Holds derive identity)
    (hvisits : Visits (hostSem derive) (Start.boot env) h h') : h'.Keeps derive identity := by
  apply hvisits.of_wp
  have hinterface : wp (hostSem derive) (fun h _ => h.Keeps derive identity)
      (Start.startInterface env) (fun _ h' => h'.Keeps derive identity) h := by
    apply wp_catching.mpr
    apply wp_bind.mpr
    apply wp_mono (wp_initServer hholds.keeps)
    rintro (err | server) h₁ hkeeps
    · cases err <;> exact hkeeps
    · apply wp_mono (wp_sparesHost sparesHost_bringUp hkeeps)
      rintro (err | raised) h₂ hkeeps
      · cases err <;> exact hkeeps
      · exact hkeeps
  apply wp_bind.mpr
  apply wp_mono hinterface
  rintro (err | up) h₁ hkeeps
  · exact hkeeps
  · exact wp_sparesHost (sparesHost_callDaemon sparesServer_restart) hkeeps

/-! ### A life -/

/-- Whatever the host becomes, it keeps the identity that it has. -/
theorem ServerLife.keeps (hderive : ∀ key, IsKeyText (derive key))
    (hholds : h₀.Holds derive identity) (hlife : ServerLife derive h₀ h) :
    h.Keeps derive identity := by
  induction hlife with
  | now => exact hholds.keeps
  | started _ hvisits ih => exact ih.trans fun _ hholds₁ => keeps_boot hholds₁ hvisits
  | served _ hreach ih =>
    exact ih.trans fun _ hholds₁ => (holds_serving hderive hholds₁ hreach).keeps
  | drift _ _ ih =>
    apply ih.trans
    intro _ hholds₁
    apply ServerHost.Holds.keeps
    exact hholds₁.less rfl rfl (List.Subset.refl _) (List.Subset.refl _) rfl
  | lostDatabase _ ih =>
    apply ih.trans
    intro _ hholds₁
    apply ServerHost.Holds.keeps
    exact hholds₁.less rfl rfl (List.nil_subset _) (List.Subset.refl _) rfl

end Process

/-! ## The identity -/

/-- **The server keeps its identity.**  Once a host has a `wg0.conf`, there is a key and a port that
    every reader of the file finds from then on, whatever settings the daemon is started with and
    wherever it is killed, unless a write to the file fails halfway; every configuration that a
    participant has been given names that key. -/
theorem serverIdentity_kept (derive : String → String) (hderive : ∀ key, IsKeyText (derive key))
    (h₀ h h' : ServerHost) (hfresh : h₀.Fresh) (hlife : ServerLife derive h₀ h)
    (hfile : h.fileExists = true) (hlater : ServerLife derive h h') :
    ∃ i : ServerIdentity,
      parseInterfaceSection h.world.wg.serverConfig = .ok (interfaceSection i.port i.privateKey) ∧
      h'.fileExists = true ∧
      parseInterfaceSection h'.world.wg.serverConfig = .ok (interfaceSection i.port i.privateKey) ∧
      (∀ file ∈ h'.world.wg.clientFiles, i.Begins derive file.2) ∧
      ∀ reply ∈ h'.replies, ServerIdentity.Tells derive (some i) reply := by
  obtain ⟨identity, -, hholds⟩ := hlife.keeps hderive hfresh.holds
  have hsome := hholds.fileExists
  rw [hfile] at hsome
  obtain ⟨i, rfl⟩ := Option.isSome_iff_exists.mp hsome.symm
  obtain ⟨identity', hsame, hholds'⟩ := hlater.keeps hderive hholds
  obtain rfl : identity' = some i := hsame i rfl
  obtain ⟨hkey, hwrites⟩ := hholds.file i rfl
  obtain ⟨hkey', hwrites'⟩ := hholds'.file i rfl
  refine ⟨i, hwrites.parsed hkey, hholds'.fileExists, hwrites'.parsed hkey', ?_, hholds'.replies⟩
  intro file hmem
  obtain ⟨other, hother, hbegins⟩ := hholds'.clients file hmem
  cases hother
  exact hbegins

def newHost : ServerHost := ⟨freshHost, false, []⟩

theorem newHost_fresh : newHost.Fresh := ⟨rfl, rfl, rfl, rfl⟩

/-- The host after its first start, and after a participant has been provisioned and the daemon
    started anew with another port. -/
def startedTwice : Option (ServerHost × ServerHost) :=
  (quietStart DaemonEnv.default newHost).bind fun h =>
    (quietService DaemonEnv.default (.wgEnsurePeer 5 ⟨"team", 1⟩) 39 h).bind fun served =>
      (quietStart { DaemonEnv.default with vpnPort := 51821 } served).map fun h' => (h, h')

theorem startedTwice_files : startedTwice.any (fun hosts => decide (hosts.1.fileExists = true ∧
    hosts.2.replies.length = 1 ∧ hosts.2.world.wg.clientFiles.length = 1)) = true := by
  decide +kernel

theorem serverIdentity_kept_startedTwice : ∃ h h', startedTwice = some (h, h') ∧
    h'.world.wg.clientFiles.length = 1 ∧ ∃ i : ServerIdentity,
      parseInterfaceSection h.world.wg.serverConfig = .ok (interfaceSection i.port i.privateKey) ∧
      h'.fileExists = true ∧
      parseInterfaceSection h'.world.wg.serverConfig = .ok (interfaceSection i.port i.privateKey) ∧
      (∀ file ∈ h'.world.wg.clientFiles, i.Begins (fun _ => "public") file.2) ∧
      ∀ reply ∈ h'.replies, ServerIdentity.Tells (fun _ => "public") (some i) reply := by
  obtain ⟨⟨h, h'⟩, hrun, hchecks⟩ := (Option.any_eq_true _ _).mp startedTwice_files
  obtain ⟨hfile, -, hclients⟩ := of_decide_eq_true hchecks
  refine ⟨h, h', hrun, hclients, ?_⟩
  obtain ⟨h₁, hfirst, hrest⟩ := Option.bind_eq_some_iff.mp hrun
  obtain ⟨h₂, hserved, hsecond⟩ := Option.bind_eq_some_iff.mp hrest
  obtain ⟨h₃, hstart, hhosts⟩ := Option.map_eq_some_iff.mp hsecond
  cases hhosts
  exact serverIdentity_kept (fun _ => "public") (fun _ => by decide) newHost h h' newHost_fresh
    (.started .now (visits_of_quietStart hfirst)) hfile
    ((ServerLife.now.servedQuietly hserved).started (visits_of_quietStart hstart))

end EdoPlugin
