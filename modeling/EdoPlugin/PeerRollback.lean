import EdoPlugin.ServerFile

/-!
# A creation of a peer that fails

Once `add_peer` has its row, it writes to the server file, the live interface and the client file.  Its
handler for a failure takes back the row and nothing else, so what is left behind depends on how far
the creation got: the block that is appended first stays in the file.
-/

namespace EdoPlugin

open Interaction

/-! ## What is compared -/

def startsBlock (cs : List Char) : Bool := "[Peer]".toList.isPrefixOf cs

/-- The text of a block, up to the next one. -/
def blockText (cs : List Char) : List Char :=
  rstripChars (charsBefore "[Peer]".toList (cs.drop 6))

def blocksIn (cs : List Char) : List (List Char) := (cs.tails.filter startsBlock).map blockText

/-- The `[Peer]` blocks of a server file. -/
def fileBlocks (text : String) : List (List Char) := blocksIn text.toList

/-- The three places a peer lives in are as they were. -/
structure PeersAsBefore (w w' : World) : Prop where
  table : w'.db.peers = w.db.peers
  blocks : fileBlocks w'.wg.serverConfig = fileBlocks w.wg.serverConfig
  live : w'.wg.live = w.wg.live

/-- The steps of `add_peer` after the insert at which an exception can arise. -/
inductive PublishStep where
  | append
  | setLive
  | makeDirectory
  | writeClient
  | protectClient
deriving DecidableEq, Repr

/-- Exactly the given steps fail with an exception, if they are reached; `wg set` does when its binary
    is missing, and a failing append has written so many characters.  The keys of a new pair are
    generated. -/
def failsAt (failing : PublishStep → Prop) (written : Nat) : Policy
  | .wg .genkey, key => ∃ text, key = .ok text
  | .wg (.pubkey _), key => ∃ text, key = .ok text
  | .wg (.appendServerConfig _), fault => (fault ≠ none ↔ failing .append) ∧
      ∀ appended ∈ fault, appended.written.getD 0 = written
  | .wg (.setPeer ..), fault => fault = some .fileNotFound ↔ failing .setLive
  | .wg .mkClientsDir, fault => fault ≠ none ↔ failing .makeDirectory
  | .wg (.writeClientFile ..), fault => fault ≠ none ↔ failing .writeClient
  | .wg (.chmodClientFile _), fault => fault ≠ none ↔ failing .protectClient
  | _, _ => True

/-- So much of a block takes nothing from the blocks of a file and adds nothing to them: at most its
    first line break, or less than its first line where there is no block before it. -/
def SparesBlocks (text : String) (written : Nat) : Prop :=
  written ≤ 1 ∨ written ≤ 6 ∧ fileBlocks text = []

instance (text : String) (written : Nat) : Decidable (SparesBlocks text written) :=
  inferInstanceAs (Decidable (_ ∨ _))

/-! ## More of a block -/

section Blocks

variable {c : Char} {cs rest marker : List Char} {n : Nat} {text : String}

theorem blocksIn_cons : blocksIn (c :: cs) =
    (if startsBlock (c :: cs) then [blockText (c :: cs)] else []) ++ blocksIn cs := by
  unfold blocksIn
  rw [List.tails_cons, List.filter_cons]
  split <;> simp

theorem blocksIn_of_startsBlock (h : startsBlock (c :: cs) = true) :
    blocksIn (c :: cs) = blockText (c :: cs) :: blocksIn cs := by
  rw [blocksIn_cons, if_pos h]
  rfl

theorem blocksIn_of_not_startsBlock (h : startsBlock (c :: cs) = false) :
    blocksIn (c :: cs) = blocksIn cs := by
  rw [blocksIn_cons, h]
  rfl

/-- A whole first line adds a block. -/
theorem length_blocksIn_append (cs rest : List Char) :
    (blocksIn cs).length + (blocksIn rest).length ≤ (blocksIn (cs ++ rest)).length := by
  induction cs with
  | nil =>
    have hnil : blocksIn [] = [] := by decide
    simp [hnil]
  | cons c cs ih =>
    rw [List.cons_append]
    cases hstarts : startsBlock (c :: cs) with
    | false =>
      rw [blocksIn_of_not_startsBlock hstarts]
      apply ih.trans
      rw [blocksIn_cons, List.length_append]
      omega
    | true =>
      have hlonger : startsBlock (c :: (cs ++ rest)) = true := by
        simp only [startsBlock, List.isPrefixOf_iff_prefix] at hstarts ⊢
        exact hstarts.trans (List.prefix_append (c :: cs) rest)
      rw [blocksIn_of_startsBlock hstarts, blocksIn_of_startsBlock hlonger, List.length_cons,
        List.length_cons]
      omega

theorem isPrefixOf_append_of_notMem (hc : c ∉ marker) :
    marker.isPrefixOf (cs ++ c :: rest) = marker.isPrefixOf cs := by
  induction marker generalizing cs with
  | nil => simp
  | cons m marker ih =>
    rw [List.mem_cons, not_or] at hc
    cases cs with
    | nil => simp [List.isPrefixOf, Ne.symm hc.1]
    | cons d cs => simp [List.isPrefixOf, ih hc.2]

/-- Less than the first line of a block. -/
def stub (n : Nat) : List Char := ('\n' :: "[Peer]".toList).take n

theorem startsBlock_stub (cs : List Char) : startsBlock (cs ++ stub n) = startsBlock cs := by
  cases n with
  | zero => simp [stub]
  | succ n => exact isPrefixOf_append_of_notMem (by decide)

theorem length_blocksIn_stub (hn : n ≤ 6) :
    (blocksIn (cs ++ stub n)).length = (blocksIn cs).length := by
  induction cs with
  | nil =>
    have hstubs : ∀ n ≤ 6, blocksIn (stub n) = [] := by decide
    rw [List.nil_append, hstubs n hn]
    rfl
  | cons c cs ih =>
    have hstarts : startsBlock (c :: (cs ++ stub n)) = startsBlock (c :: cs) :=
      startsBlock_stub (c :: cs)
    rw [List.cons_append, blocksIn_cons, blocksIn_cons, hstarts, List.length_append,
      List.length_append, ih]
    split <;> rfl

theorem blocksIn_stub_eq_nil (hn : n ≤ 6) (h : blocksIn cs = []) : blocksIn (cs ++ stub n) = [] := by
  rw [← List.length_eq_zero_iff, length_blocksIn_stub hn, h]
  rfl

theorem charsBefore_cons : charsBefore "[Peer]".toList (c :: cs) =
    if startsBlock (c :: cs) then [] else c :: charsBefore "[Peer]".toList cs := rfl

theorem charsBefore_of_noBlock (h : blocksIn cs = []) : charsBefore "[Peer]".toList cs = cs := by
  induction cs with
  | nil => rfl
  | cons c cs ih =>
    rw [blocksIn_cons, List.append_eq_nil_iff] at h
    obtain ⟨hfirst, hlater⟩ := h
    have hstarts : startsBlock (c :: cs) = false := by
      by_contra hstarts
      rw [if_pos (Bool.not_eq_false _ ▸ hstarts)] at hfirst
      cases hfirst
    rw [charsBefore_cons, if_neg (Bool.eq_false_iff.mp hstarts), ih hlater]

/-- A block that another one follows does not see the end of the file. -/
theorem charsBefore_stub (h : blocksIn cs ≠ []) :
    charsBefore "[Peer]".toList (cs ++ stub n) = charsBefore "[Peer]".toList cs := by
  induction cs with
  | nil => exact absurd (by decide) h
  | cons c cs ih =>
    have hsame : startsBlock (c :: (cs ++ stub n)) = startsBlock (c :: cs) :=
      startsBlock_stub (c :: cs)
    rw [List.cons_append, charsBefore_cons, charsBefore_cons, hsame]
    split
    · rfl
    · rename_i hstarts
      rw [blocksIn_of_not_startsBlock (Bool.eq_false_iff.mpr hstarts)] at h
      rw [ih h]

theorem drop_stub (hstarts : startsBlock cs = true) :
    (cs ++ stub n).drop 6 = cs.drop 6 ++ stub n := by
  have hlength := (List.isPrefixOf_iff_prefix.mp hstarts).length_le
  exact List.drop_append_of_le_length hlength

/-- A line break more or less is not seen. -/
theorem blockText_stub (hn : n ≤ 1) (hstarts : startsBlock cs = true) :
    blockText (cs ++ stub n) = blockText cs := by
  unfold blockText
  rw [drop_stub hstarts]
  by_cases hlast : blocksIn (cs.drop 6) = []
  · rw [charsBefore_of_noBlock (blocksIn_stub_eq_nil (by omega) hlast),
      charsBefore_of_noBlock hlast]
    obtain rfl | rfl : n = 0 ∨ n = 1 := by omega
    · simp [stub]
    · exact rstripChars_append_space (by decide)
  · rw [charsBefore_stub hlast]

theorem blocksIn_lineBreak (hn : n ≤ 1) : blocksIn (cs ++ stub n) = blocksIn cs := by
  induction cs with
  | nil =>
    have hstubs : ∀ n ≤ 1, blocksIn (stub n) = blocksIn [] := by decide
    exact hstubs n hn
  | cons c cs ih =>
    have hsame : startsBlock (c :: (cs ++ stub n)) = startsBlock (c :: cs) :=
      startsBlock_stub (c :: cs)
    rw [List.cons_append, blocksIn_cons, blocksIn_cons, hsame, ih]
    split
    · rw [← List.cons_append, blockText_stub hn ‹_›]
    · rfl

theorem length_rstripChars_le (cs : List Char) : (rstripChars cs).length ≤ cs.length := by
  have hle := (List.dropWhile_sublist (l := cs.reverse) isPySpace).length_le
  rw [List.length_reverse] at hle
  rw [rstripChars, List.length_reverse]
  exact hle

theorem blocksIn_drop (h : blocksIn cs = []) : blocksIn (cs.drop n) = [] := by
  rw [← List.length_eq_zero_iff]
  have hle : (blocksIn (cs.take n)).length + (blocksIn (cs.drop n)).length ≤
      (blocksIn (cs.take n ++ cs.drop n)).length := length_blocksIn_append _ _
  rw [List.take_append_drop, h] at hle
  rw [List.length_nil] at hle
  omega

/-- Any character of the first line is no white space. -/
theorem rstripChars_stub (hlow : 2 ≤ n) (hn : n ≤ 6) :
    rstripChars (cs ++ stub n) = cs ++ stub n := by
  have hlast : ∃ front last, stub n = front ++ [last] ∧ isPySpace last = false := by
    interval_cases n
    · exact ⟨['\n'], '[', by decide, by decide⟩
    · exact ⟨['\n', '['], 'P', by decide, by decide⟩
    · exact ⟨['\n', '[', 'P'], 'e', by decide, by decide⟩
    · exact ⟨['\n', '[', 'P', 'e'], 'e', by decide, by decide⟩
    · exact ⟨['\n', '[', 'P', 'e', 'e'], 'r', by decide, by decide⟩
  obtain ⟨front, last, hstub, hspace⟩ := hlast
  rw [hstub, ← List.append_assoc, rstripChars_append hspace]

/-- What is left of the first line counts as text of the last block. -/
theorem blocksIn_stub_ne (hlow : 2 ≤ n) (hn : n ≤ 6) (h : blocksIn cs ≠ []) :
    blocksIn (cs ++ stub n) ≠ blocksIn cs := by
  induction cs with
  | nil => exact absurd (by decide) h
  | cons c cs ih =>
    have hsame : startsBlock (c :: (cs ++ stub n)) = startsBlock (c :: cs) :=
      startsBlock_stub (c :: cs)
    rw [List.cons_append]
    cases hstarts : startsBlock (c :: cs) with
    | false =>
      rw [blocksIn_of_not_startsBlock hstarts] at h ⊢
      rw [blocksIn_of_not_startsBlock (hsame.trans hstarts)]
      exact ih h
    | true =>
      rw [blocksIn_of_startsBlock hstarts, blocksIn_of_startsBlock (hsame.trans hstarts)]
      intro heq
      obtain ⟨hfirst, hlater⟩ := List.cons.inj heq
      by_cases hlast : blocksIn cs = []
      · -- the block is the last one
        have hend : blocksIn ((c :: cs).drop 6) = [] := blocksIn_drop (n := 5) hlast
        rw [← List.cons_append] at hfirst
        unfold blockText at hfirst
        rw [drop_stub hstarts, charsBefore_of_noBlock (blocksIn_stub_eq_nil hn hend),
          charsBefore_of_noBlock hend] at hfirst
        have hlength := congrArg List.length hfirst
        rw [rstripChars_stub hlow hn, List.length_append] at hlength
        have hstub : (stub n).length = n := by
          rw [stub, List.length_take]
          exact Nat.min_eq_left (by simp; omega)
        have hshorter := length_rstripChars_le ((c :: cs).drop 6)
        omega
      · exact ih hlast hlater

theorem fileBlocks_appended_iff (peer : Peer) : fileBlocks (text ++ textTaken n (peerBlock peer)) =
    fileBlocks text ↔ SparesBlocks text n := by
  obtain ⟨rest, hrest⟩ := exists_peerBlock peer
  unfold fileBlocks SparesBlocks
  rw [String.toList_append, textTaken, String.toList_ofList, hrest, ← List.append_assoc]
  have hline : ['\n'] ++ "[Peer]".toList = '\n' :: "[Peer]".toList := rfl
  have hlength : ('\n' :: "[Peer]".toList).length = 7 := by decide
  rw [hline]
  by_cases hn : n ≤ 6
  · rw [List.take_append_of_le_length (by omega)]
    show blocksIn (text.toList ++ stub n) = _ ↔ _
    by_cases hone : n ≤ 1
    · exact iff_of_true (blocksIn_lineBreak hone) (Or.inl hone)
    · by_cases hnone : fileBlocks text = []
      · exact iff_of_true ((blocksIn_stub_eq_nil hn hnone).trans hnone.symm) (Or.inr ⟨hn, hnone⟩)
      · apply iff_of_false (blocksIn_stub_ne (by omega) hn hnone)
        rintro (hle | ⟨-, hnil⟩)
        · exact hone hle
        · exact hnone hnil
  · apply iff_of_false
    · intro heq
      have hcount := congrArg List.length heq
      have hle := length_blocksIn_append text.toList (('\n' :: "[Peer]".toList ++ rest).take n)
      rw [List.take_append, List.take_of_length_le (by omega)] at hle hcount
      have hle' := length_blocksIn_append ('\n' :: "[Peer]".toList)
        (rest.take (n - ('\n' :: "[Peer]".toList).length))
      have hone : (blocksIn ('\n' :: "[Peer]".toList)).length = 1 := by decide
      omega
    · rintro (hle | ⟨hle, -⟩) <;> omega

theorem fileBlocks_append_ne (text : String) (peer : Peer) :
    fileBlocks (text ++ peerBlock peer) ≠ fileBlocks text := by
  intro h
  have hlength := congrArg List.length h
  have hle := length_blocksIn_append text.toList (peerBlock peer).toList
  obtain ⟨rest, hrest⟩ := exists_peerBlock peer
  have hle' := length_blocksIn_append (['\n'] ++ "[Peer]".toList) rest
  have hone : (blocksIn (['\n'] ++ "[Peer]".toList)).length = 1 := by decide
  unfold fileBlocks at hlength
  rw [String.toList_append] at hlength
  rw [hrest, ← List.append_assoc ['\n']] at hle hlength
  omega

end Blocks

/-! ## What a failed creation leaves -/

variable {failing : PublishStep → Prop} {written : Nat} {w : World}

/-- The keys are there, and nothing has changed. -/
theorem wp_peerKeys_failsAt {publicKey : Option String}
    (hkey : ∀ key, publicKey = some key → isValidWgKey (String.ofList (stripChars key.toList)) = true) :
    wp (daemonSem (failsAt failing written)) (fun _ _ => True) (peerKeys publicKey)
      (fun out w' => (∃ keys, out = .ok keys) ∧ w' = w) w := by
  cases publicKey with
  | some key =>
    have hvalid := hkey key rfl
    unfold peerKeys
    simp only
    generalize String.ofList (stripChars key.toList) = stripped at hvalid ⊢
    rw [if_pos hvalid]
    exact ⟨⟨_, rfl⟩, rfl⟩
  | none =>
    refine wp_callWg trivial fun priv hpriv => ?_
    obtain ⟨privateKey, rfl⟩ := hpriv
    refine wp_callWg trivial fun pub hpub => ?_
    obtain ⟨publicKey, rfl⟩ := hpub
    exact ⟨⟨_, rfl⟩, rfl⟩

/-- What a creation that fails has done to the file and the interface: it has failed to append its
    block, of which so much got there, or it has appended it. -/
def FailedPublishing (failing : PublishStep → Prop) (written : Nat) (peer : Peer) (w w' : World) :
    Prop :=
  failing .append ∧ w'.wg.live = w.wg.live ∧
      w'.wg.serverConfig = w.wg.serverConfig ++ textTaken written (peerBlock peer) ∨
    ¬ failing .append ∧ w'.wg.serverConfig = w.wg.serverConfig ++ peerBlock peer

theorem wp_publishPeer_failsAt {peer : Peer} {server : ServerConfig} :
    wp (daemonSem (failsAt failing written)) (fun _ _ => True) (publishPeer peer server)
      (fun out w' => ∀ err, out = .error err → FailedPublishing failing written peer w w') w := by
  refine wp_callWg trivial fun fault hfault => ?_
  obtain ⟨hfails, hwritten⟩ := hfault
  cases fault with
  | some fault =>
    intro err _
    refine Or.inl ⟨hfails.mp (by simp), rfl, ?_⟩
    rw [← hwritten fault rfl]
    rfl
  | none =>
    have happended : ¬ failing .append := fun h => hfails.mpr h rfl
    refine wp_mono (wp_sparesServerFile callsOnly_afterAppend) fun out w' hsame err _ => ?_
    exact Or.inr ⟨happended, hsame.2⟩

/-- **A failed creation.** -/
theorem wp_addPeer_failsAt {owner : Owner} {username : String} {server : ServerConfig}
    {publicKey : Option String}
    (hkey : ∀ key, publicKey = some key → isValidWgKey (String.ofList (stripChars key.toList)) = true)
    (hfresh : w.db.getPeer username = none) (hfree : w.db.firstFreeIp peerCandidateIps ≠ none) :
    wp (daemonSem (failsAt failing written)) (fun _ _ => True)
      (addPeer owner username server publicKey)
      (fun out w' => ∀ err, out = .error err → w'.db = w.db ∧
        ∃ peer, FailedPublishing failing written peer w w') w := by
  obtain ⟨ip, hip⟩ := Option.ne_none_iff_exists'.mp hfree
  refine wp_seq (wp_peerKeys_failsAt hkey) (fun keys w₁ hw₁ => ?_) fun err w₁ hw₁ => ?_
  · rw [hw₁.2]
    refine wp_callDb trivial ?_
    simp only [DbOp.exec, Db.allocatePeer_eq, hip, hfresh, Prog.ofExcept, Prog.bind_eq, Prog.bind_ret]
    refine wp_bind.mpr (wp_catching.mpr (wp_mono (wp_and wp_publishPeer wp_publishPeer_failsAt) ?_))
    rintro out w' ⟨⟨hdb, -⟩, hfailed⟩
    let peer : Peer := ⟨owner, username, ip, keys.1, keys.2⟩
    change w'.db = { w.db with peers := w.db.peers ++ [peer] } at hdb
    cases out with
    | ok text => exact fun err h => by cases h
    | error err =>
      refine wp_callDb trivial fun err' _ => ?_
      have hremoved := @removePeer_append w.db peer hfresh
      rw [← hdb] at hremoved
      exact ⟨hremoved, _, hfailed err rfl⟩
  · obtain ⟨⟨keys, hkeys⟩, -⟩ := hw₁
    cases hkeys

/-- **Atomicity.**  For every state in which the insert succeeds and whichever of the later steps fail,
    a call that raises leaves table, blocks and interface as they were exactly if it failed to append,
    with too little written to matter. -/
theorem addPeer_atomic_iff (failing : PublishStep → Prop) (written : Nat) (owner : Owner)
    (username : String) (server : ServerConfig) (publicKey : Option String) (w w' : World) (err : PyErr)
    (hkey : ∀ key, publicKey = some key → isValidWgKey (String.ofList (stripChars key.toList)) = true)
    (hfresh : w.db.getPeer username = none) (hfree : w.db.firstFreeIp peerCandidateIps ≠ none)
    (hends : Ends (daemonSem (failsAt failing written)) (addPeer owner username server publicKey) w
      (.error err) w') :
    PeersAsBefore w w' ↔ failing .append ∧ SparesBlocks w.wg.serverConfig written := by
  obtain ⟨hdb, peer, ⟨happend, hlive, hfile⟩ | ⟨happended, hfile⟩⟩ :=
    hends.of_wp (wp_addPeer_failsAt hkey hfresh hfree) err rfl
  · have hblocks : fileBlocks w'.wg.serverConfig = fileBlocks w.wg.serverConfig ↔
        SparesBlocks w.wg.serverConfig written := by
      rw [hfile]
      exact fileBlocks_appended_iff peer
    constructor
    · exact fun hbefore => ⟨happend, hblocks.mp hbefore.blocks⟩
    · rintro ⟨-, hspares⟩
      exact ⟨by rw [hdb], hblocks.mpr hspares, hlive⟩
  · constructor
    · intro hbefore
      have hblocks := hbefore.blocks
      rw [hfile] at hblocks
      exact absurd hblocks (fileBlocks_append_ne _ _)
    · exact fun happend => absurd happend.1 happended

/-! ## Two failures -/

/-- A file of which nothing can be written, and nothing else. -/
def unwritable (step : PublishStep) : (op : DaemonOp) → op.Choice
  | .wg (.appendServerConfig _) =>
    if step = .append then some ⟨.osError "No space left on device", some 0⟩ else none
  | .wg .mkClientsDir =>
    if step = .makeDirectory then some (.osError "Read-only file system") else none
  | op => quietChoice op

def raisesUnwritable (step : PublishStep) : Option World :=
  match daemonMachine.run (unwritable step)
      (addPeer ⟨"team", 1⟩ (usernameOf 5) ⟨"server", "public", "vpn", 51820⟩ none) freshServer with
  | some (_, .error (.osError _), w) => some w
  | _ => none

theorem failsAt_unwritable {step : PublishStep} (hstep : step = .append ∨ step = .makeDirectory)
    (op : DaemonOp) : failsAt (fun failing => failing = step) 0 op (unwritable step op) := by
  rcases hstep with rfl | rfl
  · unfold failsAt
    split <;> simp [unwritable, quietChoice]
  · unfold failsAt
    split <;> simp [unwritable, quietChoice]

theorem ends_of_raisesUnwritable {step : PublishStep} {w : World}
    (hstep : step = .append ∨ step = .makeDirectory) (h : raisesUnwritable step = some w) :
    ∃ msg, Ends (daemonSem (failsAt (fun failing => failing = step) 0))
      (addPeer ⟨"team", 1⟩ (usernameOf 5) ⟨"server", "public", "vpn", 51820⟩ none) freshServer
      (.error (.osError msg)) w := by
  unfold raisesUnwritable at h
  split at h
  · rename_i trace msg w' hrun
    cases h
    exact ⟨msg, trace, Machine.runs_of_run (failsAt_unwritable hstep) hrun⟩
  · cases h

theorem unwritableServerConfig_raises : (raisesUnwritable .append).isSome = true := by
  decide +kernel

theorem addPeer_atomic_iff_unwritableServerConfig : ∃ w, raisesUnwritable .append = some w ∧
    (PeersAsBefore freshServer w ↔
      PublishStep.append = .append ∧ SparesBlocks freshServer.wg.serverConfig 0) := by
  obtain ⟨w, hw⟩ := Option.isSome_iff_exists.mp unwritableServerConfig_raises
  obtain ⟨msg, hends⟩ := ends_of_raisesUnwritable (Or.inl rfl) hw
  exact ⟨w, hw, addPeer_atomic_iff (fun failing => failing = .append) 0 _ _ _ none freshServer w _
    (fun key h => by cases h) (by decide) (by decide) hends⟩

theorem unwritableClientsDir_leaves : (raisesUnwritable .makeDirectory).any (fun w =>
    decide (w.db.peers = [] ∧ w.wg.live = [("public", dotted 10 8 0 2)])) = true := by
  decide +kernel

/-- The clients directory cannot be made: the row is taken back, and the interface goes on routing its
    address to the abandoned key. -/
theorem not_addPeer_atomic :
    ¬ ∀ (failing : PublishStep → Prop) (written : Nat) (owner : Owner) (username : String)
      (server : ServerConfig) (publicKey : Option String) (w w' : World) (err : PyErr),
      (∀ key, publicKey = some key → isValidWgKey (String.ofList (stripChars key.toList)) = true) →
      w.db.getPeer username = none → w.db.firstFreeIp peerCandidateIps ≠ none →
      Ends (daemonSem (failsAt failing written)) (addPeer owner username server publicKey) w
        (.error err) w' → PeersAsBefore w w' := by
  intro hall
  obtain ⟨w, hw, hleft⟩ := (Option.any_eq_true _ _).mp unwritableClientsDir_leaves
  obtain ⟨-, hlive⟩ := of_decide_eq_true hleft
  obtain ⟨msg, hends⟩ := ends_of_raisesUnwritable (Or.inr rfl) hw
  have hbefore := hall (fun failing => failing = .makeDirectory) 0 _ _ _ none freshServer w _
    (fun key h => by cases h) (by decide) (by decide) hends
  have hsame := hbefore.live
  rw [hlive] at hsame
  cases hsame

end EdoPlugin
