import EdoPlugin.ConfigParser
import EdoPlugin.DaemonHandlers
import EdoPlugin.PeerPrograms

/-!
# The server file follows the table

`add_peer` appends one block to `wg0.conf`, `remove_peer` writes the whole file anew from the table.
After any history of successful calls the text is the one `init_server` wrote and the block of each
row, and `_parse_interface_section` reads from it what it read at the start.
-/

namespace EdoPlugin

open Interaction
open ConfigParser (textOf OneLine Reader sectionLine optionLine IsName IsValue)

/-! ## The file -/

/-- What `init_server` writes. -/
def initServerContents (port : Nat) (privateKey : String) : String :=
  "[Interface]\n" ++
  "# edo: WireGuard server interface\n" ++
  s!"Address = {addressStr wgServerIp}/{wgSubnet.prefixlen}\n" ++
  s!"ListenPort = {port}\n" ++
  s!"PrivateKey = {privateKey}\n" ++
  "SaveConfig = false\n"

/-- `_parse_interface_section`, on the text of the file. -/
def parseInterfaceSection (text : String) : Except PyErr (List (String × String)) :=
  match ConfigParser.readFile text with
  | .error .attribute => .error (.attributeError "'NoneType' object has no attribute 'append'")
  | .error _ => .error (.runtimeError s!"failed to parse {wgServerConfigPath}")
  | .ok sections =>
    match ConfigParser.items sections "Interface" with
    | none => .error (.runtimeError s!"no [Interface] section in {wgServerConfigPath}")
    | some options => .ok (options.map fun entry =>
        (entry.1, String.ofList (stripChars (entry.2.getD "").toList)))

/-- Text of the base64 alphabet. -/
def IsKeyText (key : String) : Prop := ∀ c ∈ key.toList, isBase64Char c = true ∨ c = '='

instance (key : String) : Decidable (IsKeyText key) :=
  List.decidableBAll (fun c => isBase64Char c = true ∨ c = '=') key.toList

/-- `wg` prints keys in base64; every call may fail. -/
def base64Keys : Policy
  | .wg .genkey, key => ∀ k, key = .ok k → IsKeyText k
  | .wg (.pubkey _), key => ∀ k, key = .ok k → IsKeyText k
  | _, _ => True

/-- A history of calls that return, one at a time, from the file that `init_server` wrote and an
    empty table. -/
inductive PeerHistory (port : Nat) (privateKey : String) : World → Prop
  | start {w : World} : w.db.peers = [] →
      w.wg.serverConfig = initServerContents port privateKey → PeerHistory port privateKey w
  | added {w w' : World} {owner : Owner} {userId : Int} {server : ServerConfig}
      {publicKey : Option String} {config : ClientConfig} : PeerHistory port privateKey w →
      Ends (daemonSem base64Keys) (addPeer owner (usernameOf userId) server publicKey) w
        (.ok config) w' → PeerHistory port privateKey w'
  | removed {w w' : World} {userId : Int} {removed : Bool} : PeerHistory port privateKey w →
      Ends (daemonSem base64Keys) (removePeer (usernameOf userId)) w (.ok removed) w' →
      PeerHistory port privateKey w'

/-! ## Its lines -/

def headerLines (port : Nat) (privateKey : String) : List (List Char) :=
  [sectionLine "Interface", "# edo: WireGuard server interface".toList,
    optionLine "Address" "10.8.0.1/24", optionLine "ListenPort" (toString port),
    optionLine "PrivateKey" privateKey, optionLine "SaveConfig" "false"]

def blockLines (peer : Peer) : List (List Char) :=
  [[], sectionLine "Peer", '#' :: ' ' :: peer.username.toList,
    optionLine "PublicKey" peer.publicKey,
    optionLine "AllowedIPs" (addressStr peer.ipAddress ++ "/32")]

theorem toString_string (s : String) : toString s = s := rfl

theorem toList_initServerContents {port : Nat} {privateKey : String} :
    (initServerContents port privateKey).toList = textOf (headerLines port privateKey) := by
  have haddress : addressStr wgServerIp = "10.8.0.1" := by decide
  have hprefix : toString wgSubnet.prefixlen = "24" := by decide
  simp [initServerContents, headerLines, textOf, sectionLine, optionLine, String.toList_append,
    haddress, hprefix, toString_string]

theorem toList_peerBlock {peer : Peer} : (peerBlock peer).toList = textOf (blockLines peer) := by
  simp [peerBlock, blockLines, textOf, sectionLine, optionLine, String.toList_append,
    toString_string]

/-- The file for a list of peers. -/
def serverText (port : Nat) (privateKey : String) (peers : List Peer) : String :=
  String.join (initServerContents port privateKey :: peers.map peerBlock)

/-! ## Its characters -/

section Characters

variable {c : Char} {text : String} {line : List Char}

theorem isPySpace_of_isBase64Char (h : isBase64Char c = true) : isPySpace c = false := by
  have hbounds : 33 ≤ c.toNat ∧ c.toNat ≤ 126 := by
    simp only [isBase64Char, Char.isAlphanum, Char.isAlpha, Char.isUpper, Char.isLower,
      Char.isDigit, Bool.or_eq_true, Bool.and_eq_true, decide_eq_true_eq, beq_iff_eq] at h
    rcases h with (((h | h) | h) | rfl) | rfl
    · have hlow : 65 ≤ c.toNat := h.1
      have hhigh : c.toNat ≤ 90 := h.2
      omega
    · have hlow : 97 ≤ c.toNat := h.1
      have hhigh : c.toNat ≤ 122 := h.2
      omega
    · have hlow : 48 ≤ c.toNat := h.1
      have hhigh : c.toNat ≤ 57 := h.2
      omega
    · decide
    · decide
  simp only [isPySpace, Bool.or_eq_false_iff, Bool.and_eq_false_iff, decide_eq_false_iff_not,
    beq_eq_false_iff_ne]
  omega

theorem IsKeyText.isValue (h : IsKeyText text) : IsValue text := by
  intro c hc
  rcases h c hc with hc | rfl
  · refine ⟨isPySpace_of_isBase64Char hc, ?_⟩
    rintro rfl
    exact absurd hc (by decide)
  · decide

theorem isValueChar_of_isDigit (h : c.isDigit = true) : ConfigParser.IsValueChar c := by
  refine ⟨isPySpace_of_isDigit h, ?_⟩
  rintro rfl
  exact absurd h (by decide)

theorem isDigit_of_mem_toString {n : Nat} (h : c ∈ (toString n).toList) : c.isDigit = true := by
  have hmem : c ∈ Nat.toDigits 10 n := by simpa using h
  exact Nat.isDigit_of_mem_toDigits (by decide) (by decide) hmem

theorem isValue_toString (n : Nat) : IsValue (toString n) := fun _ hc =>
  isValueChar_of_isDigit (isDigit_of_mem_toString hc)

theorem isValue_addressStr (ip : IPv4Address) : IsValue (addressStr ip ++ "/32") := by
  have hnumber : ∀ {n : Nat} {c : Char}, c ∈ (toString n).toList → ConfigParser.IsValueChar c :=
    fun hc => isValueChar_of_isDigit (isDigit_of_mem_toString hc)
  have hdot : IsValue "." := by decide
  have hprefix : IsValue "/32" := by decide
  intro c hc
  simp only [addressStr, toString_string, String.toList_append, List.mem_append] at hc
  rcases hc with ((((((hc | hc) | hc) | hc) | hc) | hc) | hc) | hc
  · exact hnumber hc
  · exact hdot c hc
  · exact hnumber hc
  · exact hdot c hc
  · exact hnumber hc
  · exact hdot c hc
  · exact hnumber hc
  · exact hprefix c hc

/-- Stripped text has nothing to strip. -/
theorem stripChars_stripChars : stripChars (stripChars line) = stripChars line := by
  have hright : ∀ cs : List Char, rstripChars (rstripChars cs) = rstripChars cs := fun cs => by
    unfold rstripChars
    rw [List.reverse_reverse, List.dropWhile_idempotent]
  have hprefix : ∀ cs : List Char, rstripChars cs <+: cs := fun cs => by
    rw [← List.reverse_suffix, rstripChars, List.reverse_reverse]
    exact List.dropWhile_suffix _
  unfold stripChars
  cases hline : line.dropWhile isPySpace with
  | nil => rfl
  | cons c cs =>
    have hc : isPySpace c = false := by
      have hhead := List.head?_dropWhile_not isPySpace line
      rw [hline] at hhead
      simpa using hhead
    have hne : rstripChars (c :: cs) ≠ [] := stripChars_cons hc ▸ stripChars_cons_ne_nil hc
    obtain ⟨d, ds, hds⟩ := List.exists_cons_of_ne_nil hne
    have hd : d = c := by
      have hcs := hprefix (c :: cs)
      rw [hds] at hcs
      exact (List.cons_prefix_cons.mp hcs).1
    rw [hds, hd, List.dropWhile_cons_of_neg (by simp [hc]), ← hd, ← hds, hright]

/-- A key that was found valid is text of the alphabet. -/
theorem isKeyText_of_isValidWgKey {key : String} (hstrip : stripChars key.toList = key.toList)
    (h : isValidWgKey key = true) : IsKeyText key := by
  unfold isValidWgKey at h
  rw [hstrip] at h
  simp only [Bool.and_eq_true, beq_iff_eq, List.all_eq_true] at h
  obtain ⟨⟨-, hlast⟩, hall⟩ := h
  intro c hc
  have hsplit : key.toList = key.toList.dropLast ++ ['='] :=
    (List.dropLast_append_getLast? _ hlast).symm
  rw [hsplit, List.mem_append, List.mem_singleton] at hc
  exact hc.imp_left (hall c)

/-- The two characters that end a line are white space. -/
theorem oneLine_of_nonspace (h : ∀ c ∈ line, isPySpace c = false) : OneLine line := by
  constructor
  · exact fun hmem => absurd (h _ hmem) (by decide)
  · exact fun hmem => absurd (h _ hmem) (by decide)

theorem oneLine_append {rest : List Char} (h : OneLine line) (hrest : OneLine rest) :
    OneLine (line ++ rest) := by
  simp only [OneLine, List.mem_append, not_or]
  exact ⟨⟨h.1, hrest.1⟩, h.2, hrest.2⟩

theorem oneLine_optionLine {name : String} (hname : IsName name) (hvalue : IsValue text) :
    OneLine (optionLine name text) := by
  apply oneLine_append
  · exact oneLine_of_nonspace fun c hc => (hname.2 c hc).1
  · have hsign : OneLine [' ', '=', ' '] := ⟨by decide, by decide⟩
    exact oneLine_append hsign (oneLine_of_nonspace fun c hc => (hvalue c hc).1)

theorem oneLine_usernameOf (userId : Int) : OneLine (usernameOf userId).toList := by
  have hnumber : ∀ n : Nat, OneLine (toString n).toList := fun n =>
    oneLine_of_nonspace fun c hc => isPySpace_of_isDigit (isDigit_of_mem_toString hc)
  have hprefix : OneLine "user_".toList := by decide
  have hsplit : (usernameOf userId).toList = "user_".toList ++ (toString userId).toList := by
    simp [usernameOf, String.toList_append, toString_string]
  rw [hsplit]
  apply oneLine_append hprefix
  cases userId with
  | ofNat n => exact hnumber n
  | negSucc n =>
    have hminus : (toString (Int.negSucc n)).toList = "-".toList ++ (toString (n + 1)).toList := by
      rw [← String.toList_append]
      rfl
    rw [hminus]
    exact oneLine_append (by decide) (hnumber (n + 1))

end Characters

/-! ## Reading it -/

/-- The reader at the end of the header. -/
def headerReader (port : Nat) (privateKey : String) : Reader :=
  ⟨[("DEFAULT", []), ("Interface", [("Address", some ["10.8.0.1/24"]),
      ("ListenPort", some [toString port]), ("PrivateKey", some [privateKey]),
      ("SaveConfig", some ["false"])])], some "Interface", "SaveConfig", 0, false⟩

/-- The reader at the end of a block that begins here. -/
def ConfigParser.Reader.afterBlock (r : Reader) (peer : Peer) : Reader :=
  let entered := { r with indent := 0 }.enter "Peer"
  let keyed := { entered.setOption "PublicKey" (some [peer.publicKey]) with option := "PublicKey" }
  { keyed.setOption "AllowedIPs" (some [addressStr peer.ipAddress ++ "/32"]) with
    option := "AllowedIPs" }

/-- The reader at the end of a block: the sections of all peers are one, with the keys of the last. -/
def peerReader (port : Nat) (privateKey : String) (peer : Peer) : Reader :=
  ⟨[("DEFAULT", []), ("Interface", [("Address", some ["10.8.0.1/24"]),
      ("ListenPort", some [toString port]), ("PrivateKey", some [privateKey]),
      ("SaveConfig", some ["false", ""])]), ("Peer", [("PublicKey", some [peer.publicKey]),
      ("AllowedIPs", some [addressStr peer.ipAddress ++ "/32"])])], some "Peer", "AllowedIPs", 0,
    false⟩

section Reading

variable {port : Nat} {privateKey : String} {peer other : Peer}

theorem foldlM_headerLines (hkey : IsKeyText privateKey) :
    (headerLines port privateKey).foldlM Reader.readLine .start =
      .ok (headerReader port privateKey) := by
  have hcomment : "# edo: WireGuard server interface".toList =
      '#' :: " edo: WireGuard server interface".toList := by decide
  simp only [headerLines, List.foldlM_cons, hcomment]
  rw [ConfigParser.readLine_sectionLine (by decide)]
  simp only [bind, Except.bind]
  rw [Reader.readLine_comment]
  simp only
  rw [ConfigParser.readLine_optionLine (by decide) (by decide) rfl]
  simp only
  rw [ConfigParser.readLine_optionLine (by decide) (isValue_toString port) rfl]
  simp only
  rw [ConfigParser.readLine_optionLine (by decide) hkey.isValue rfl]
  simp only
  rw [ConfigParser.readLine_optionLine (by decide) (by decide) rfl]
  rfl

/-- A block; its empty line belongs to the value before it. -/
theorem foldlM_blockLines {r r' : Reader} (hblank : r.readLine [] = .ok r')
    (hkey : IsKeyText peer.publicKey) :
    (blockLines peer).foldlM Reader.readLine r = .ok (r'.afterBlock peer) := by
  simp only [blockLines, List.foldlM_cons, hblank]
  simp only [bind, Except.bind]
  rw [ConfigParser.readLine_sectionLine (by decide)]
  simp only
  rw [Reader.readLine_comment]
  simp only
  rw [ConfigParser.readLine_optionLine (by decide) hkey.isValue rfl]
  simp only
  rw [ConfigParser.readLine_optionLine (by decide) (isValue_addressStr _) rfl]
  rfl

/-- However many blocks follow, the reader ends as after one block. -/
theorem foldlM_blocks {peers : List Peer} (hkeys : ∀ peer ∈ peers, IsKeyText peer.publicKey) :
    ∃ last, (peers.flatMap blockLines).foldlM Reader.readLine (peerReader port privateKey other) =
      .ok (peerReader port privateKey last) := by
  induction peers generalizing other with
  | nil => exact ⟨other, rfl⟩
  | cons peer peers ih =>
    have hblock : (blockLines peer).foldlM Reader.readLine (peerReader port privateKey other) =
        .ok (peerReader port privateKey peer) :=
      foldlM_blockLines (Reader.readLine_blank rfl) (hkeys peer List.mem_cons_self)
    rw [List.flatMap_cons, List.foldlM_append, hblock]
    exact ih fun p hp => hkeys p (List.mem_cons_of_mem _ hp)

theorem toList_serverText {peers : List Peer} : (serverText port privateKey peers).toList =
    textOf (headerLines port privateKey ++ peers.flatMap blockLines) := by
  have hblocks : (peers.map peerBlock).flatMap String.toList = textOf (peers.flatMap blockLines) := by
    simp only [textOf, List.flatMap_map, List.flatMap_assoc]
    exact List.flatMap_congr fun peer _ => toList_peerBlock
  simp only [serverText, String.toList_join, List.flatMap_cons, toList_initServerContents, hblocks]
  simp only [textOf, List.flatMap_append]

theorem oneLine_headerLines (hkey : IsKeyText privateKey) :
    ∀ line ∈ headerLines port privateKey, OneLine line := by
  intro line hline
  simp only [headerLines, List.mem_cons, List.not_mem_nil, or_false] at hline
  rcases hline with rfl | rfl | rfl | rfl | rfl | rfl
  · decide
  · decide
  · decide
  · exact oneLine_optionLine (by decide) (isValue_toString port)
  · exact oneLine_optionLine (by decide) hkey.isValue
  · decide

theorem oneLine_blockLines (hkey : IsKeyText peer.publicKey)
    (hname : OneLine peer.username.toList) : ∀ line ∈ blockLines peer, OneLine line := by
  intro line hline
  simp only [blockLines, List.mem_cons, List.not_mem_nil, or_false] at hline
  rcases hline with rfl | rfl | rfl | rfl | rfl
  · decide
  · decide
  · have hmark : OneLine ['#', ' '] := by decide
    exact oneLine_append hmark hname
  · exact oneLine_optionLine (by decide) hkey.isValue
  · exact oneLine_optionLine (by decide) (isValue_addressStr _)

theorem fileLines_serverText {peers : List Peer} (hkey : IsKeyText privateKey)
    (hkeys : ∀ peer ∈ peers, IsKeyText peer.publicKey)
    (hnames : ∀ peer ∈ peers, OneLine peer.username.toList) :
    ConfigParser.fileLines (serverText port privateKey peers).toList =
      headerLines port privateKey ++ peers.flatMap blockLines := by
  rw [toList_serverText]
  apply ConfigParser.fileLines_textOf
  intro line hline
  rcases List.mem_append.mp hline with hheader | hblock
  · exact oneLine_headerLines hkey line hheader
  · obtain ⟨peer, hpeer, hline⟩ := List.mem_flatMap.mp hblock
    exact oneLine_blockLines (hkeys peer hpeer) (hnames peer hpeer) line hline

/-- What `_parse_interface_section` returns. -/
def interfaceSection (port : Nat) (privateKey : String) : List (String × String) :=
  [("Address", "10.8.0.1/24"), ("ListenPort", toString port), ("PrivateKey", privateKey),
    ("SaveConfig", "false")]

/-- The text of a value: its lines as one, without the white space around them. -/
def valueText (lines : List String) : String :=
  String.ofList (stripChars (ConfigParser.joinLines lines).toList)

theorem valueText_singleton {value : String} (hvalue : IsValue value) :
    valueText [value] = value := by
  have hspaces : ∀ c ∈ value.toList, isPySpace c = false := fun c hc => (hvalue c hc).1
  have htext : "\n".intercalate [value] = value := by simp
  rw [valueText, ConfigParser.joinLines, htext, rstripChars_of_nonspace hspaces,
    String.toList_ofList, stripChars_of_nonspace hspaces, String.ofList_toList]

/-- The reader ends after the header or after a block. -/
theorem foldlM_lines {peers : List Peer} (hkey : IsKeyText privateKey)
    (hkeys : ∀ peer ∈ peers, IsKeyText peer.publicKey) :
    ∃ r, (headerLines port privateKey ++ peers.flatMap blockLines).foldlM Reader.readLine .start =
        .ok r ∧ (r = headerReader port privateKey ∨ ∃ last, r = peerReader port privateKey last) := by
  rw [List.foldlM_append, foldlM_headerLines hkey]
  cases peers with
  | nil => exact ⟨_, rfl, Or.inl rfl⟩
  | cons peer peers =>
    have hopen : (headerReader port privateKey).openValue = some (some ["false"]) := rfl
    have hblock : (blockLines peer).foldlM Reader.readLine (headerReader port privateKey) =
        .ok (peerReader port privateKey peer) :=
      foldlM_blockLines (Reader.readLine_blank hopen) (hkeys peer List.mem_cons_self)
    obtain ⟨last, hrest⟩ := foldlM_blocks fun p hp => hkeys p (List.mem_cons_of_mem peer hp)
    refine ⟨_, ?_, Or.inr ⟨last, rfl⟩⟩
    show (blockLines peer ++ peers.flatMap blockLines).foldlM Reader.readLine
      (headerReader port privateKey) = _
    rw [List.foldlM_append, hblock]
    exact hrest

theorem parseInterfaceSection_serverText {peers : List Peer} (hkey : IsKeyText privateKey)
    (hkeys : ∀ peer ∈ peers, IsKeyText peer.publicKey)
    (hnames : ∀ peer ∈ peers, OneLine peer.username.toList) :
    parseInterfaceSection (serverText port privateKey peers) =
      .ok (interfaceSection port privateKey) := by
  have haddress : valueText ["10.8.0.1/24"] = "10.8.0.1/24" := by decide
  have hsave : valueText ["false"] = "false" := by decide
  have hsave' : valueText ["false", ""] = "false" := by decide
  have hport : valueText [toString port] = toString port := valueText_singleton (isValue_toString port)
  have hprivate : valueText [privateKey] = privateKey := valueText_singleton hkey.isValue
  obtain ⟨r, hread, hr⟩ := @foldlM_lines port _ _ hkey hkeys
  unfold parseInterfaceSection ConfigParser.readFile
  rw [fileLines_serverText hkey hkeys hnames, hread]
  rcases hr with rfl | ⟨last, rfl⟩
  · show Except.ok [("Address", valueText ["10.8.0.1/24"]), ("ListenPort", valueText [toString port]),
      ("PrivateKey", valueText [privateKey]), ("SaveConfig", valueText ["false"])] = _
    rw [haddress, hport, hprivate, hsave]
    rfl
  · show Except.ok [("Address", valueText ["10.8.0.1/24"]), ("ListenPort", valueText [toString port]),
      ("PrivateKey", valueText [privateKey]), ("SaveConfig", valueText ["false", ""])] = _
    rw [haddress, hport, hprivate, hsave']
    rfl

end Reading

/-! ## Writing it anew -/

section Writing

variable {port : Nat} {privateKey : String}

/-- The marker stands nowhere in the header but at its first character, where another section's
    name follows. -/
theorem bracket_notMem (hkey : IsKeyText privateKey) :
    '[' ∉ textOf (headerLines port privateKey).tail := by
  have hname : ∀ {name value : String}, '[' ∉ name.toList → '[' ∉ value.toList →
      '[' ∉ optionLine name value := by
    intro name value hname hvalue
    simp [optionLine, hname, hvalue]
  have hport : '[' ∉ (toString port).toList := fun h =>
    absurd (isDigit_of_mem_toString h) (by decide)
  have hprivate : '[' ∉ privateKey.toList := fun h => absurd (hkey _ h) (by decide)
  intro hmem
  obtain ⟨line, hline, hc⟩ := List.mem_flatMap.mp hmem
  have hc : '[' ∈ line := by simpa using hc
  simp only [headerLines, List.tail_cons, List.mem_cons, List.not_mem_nil, or_false] at hline
  rcases hline with rfl | rfl | rfl | rfl | rfl
  · exact absurd hc (by decide)
  · exact absurd hc (by decide)
  · exact hname (by decide) hport hc
  · exact hname (by decide) hprivate hc
  · exact absurd hc (by decide)

theorem charsBefore_header (hkey : IsKeyText privateKey) {cs : List Char} :
    charsBefore "[Peer]".toList ((initServerContents port privateKey).toList ++ cs) =
      (initServerContents port privateKey).toList ++ charsBefore "[Peer]".toList cs := by
  have hmarker : "[Peer]".toList = '[' :: "Peer]".toList := by decide
  have hfirst : textOf (headerLines port privateKey) =
      '[' :: ("Interface]\n".toList ++ textOf (headerLines port privateKey).tail) := by
    have hname : "Interface]\n".toList = "Interface".toList ++ [']', '\n'] := by decide
    simp [headerLines, textOf, sectionLine, hname]
  have hrest : '[' ∉ "Interface]\n".toList ++ textOf (headerLines port privateKey).tail := by
    rw [List.mem_append, not_or]
    exact ⟨by decide, bracket_notMem hkey⟩
  have hother : ∀ ds, ('[' :: "Peer]".toList).isPrefixOf ('[' :: ("Interface]\n".toList ++ ds)) =
      false := fun ds => by simp [List.isPrefixOf]
  rw [toList_initServerContents, hmarker, hfirst, List.cons_append, charsBefore, List.append_assoc,
    hother]
  rw [← List.append_assoc, charsBefore_append hrest]
  simp

theorem rstripChars_header :
    rstripChars (initServerContents port privateKey).toList ++ ['\n'] =
      (initServerContents port privateKey).toList := by
  obtain ⟨before, hbefore⟩ : ∃ before, textOf (headerLines port privateKey) =
      (before ++ "false".toList) ++ ['\n'] := by
    refine ⟨textOf (headerLines port privateKey).dropLast ++ "SaveConfig = ".toList, ?_⟩
    have hname : "SaveConfig = ".toList = "SaveConfig".toList ++ [' ', '=', ' '] := by
      decide
    simp [headerLines, textOf, optionLine, hname]
  have hfalse : IsValue "false" := by decide
  have hspaces : ∀ c ∈ "false".toList, isPySpace c = false := fun c hc => (hfalse c hc).1
  rw [toList_initServerContents, hbefore, rstripChars_append_space (by decide),
    rstripChars_append_of_nonspace hspaces (by decide)]

theorem exists_peerBlock (peer : Peer) :
    ∃ rest, (peerBlock peer).toList = ['\n'] ++ ("[Peer]".toList ++ rest) := by
  have hname : "[Peer]".toList = '[' :: ("Peer".toList ++ [']']) := by decide
  rw [toList_peerBlock]
  exact ⟨_, by simp [blockLines, textOf, sectionLine, hname]; rfl⟩

/-- What stands before the first peer is what `init_server` wrote. -/
theorem serverConfigHeader_serverText {peers : List Peer} (hkey : IsKeyText privateKey) :
    serverConfigHeader (serverText port privateKey peers) = initServerContents port privateKey := by
  have hmarker : "[Peer]".toList = '[' :: "Peer]".toList := by decide
  apply String.toList_inj.mp
  cases peers with
  | nil =>
    have htext : (serverText port privateKey []).toList =
        (initServerContents port privateKey).toList ++ [] := by
      simp [serverText]
    rw [serverConfigHeader, htext, charsBefore_header hkey]
    simpa [charsBefore] using rstripChars_header
  | cons peer peers =>
    obtain ⟨rest, hrest⟩ : ∃ rest, (serverText port privateKey (peer :: peers)).toList =
        (initServerContents port privateKey).toList ++ (['\n'] ++ ("[Peer]".toList ++ rest)) := by
      obtain ⟨rest, hrest⟩ := exists_peerBlock peer
      refine ⟨rest ++ (String.join (peers.map peerBlock)).toList, ?_⟩
      simp only [serverText, List.map_cons, String.toList_join, List.flatMap_cons, hrest]
      simp
    have hbefore : charsBefore "[Peer]".toList (['\n'] ++ ("[Peer]".toList ++ rest)) = ['\n'] := by
      rw [hmarker, charsBefore_append (by decide), charsBefore_marker, List.append_nil]
    rw [serverConfigHeader, hrest, charsBefore_header hkey, hbefore,
      rstripChars_append_space (by decide)]
    simpa using rstripChars_header

end Writing

/-! ## Histories -/

/-- What a history keeps up. -/
structure MirrorsPeers (port : Nat) (privateKey : String) (w : World) : Prop where
  file : w.wg.serverConfig = serverText port privateKey w.db.peers
  keys : ∀ peer ∈ w.db.peers, IsKeyText peer.publicKey
  names : ∀ peer ∈ w.db.peers, OneLine peer.username.toList

theorem wp_generateKeypair_isKeyText {w : World} :
    wp (daemonSem base64Keys) (fun _ _ => True) generateKeypair
      (returning fun pair _ => IsKeyText pair.publicKey) w := by
  have hprinted : ∀ {what : String} {result : Except CmdFault String} {w : World},
      (∀ k, result = .ok k → IsKeyText k) →
      wp (daemonSem base64Keys) (fun _ _ => True) (wgOutput what result)
        (returning fun key _ => IsKeyText key) w := by
    intro what result w hresult
    cases result with
    | ok key => exact hresult key rfl
    | error err => cases err <;> exact True.intro
  refine wp_callWg trivial fun key hkey => ?_
  refine wp_bind_returning (hprinted hkey) fun privateKey w' _ => ?_
  refine wp_callWg trivial fun key hkey => ?_
  refine wp_bind_returning (hprinted hkey) fun publicKey w'' hpublic => ?_
  exact hpublic

theorem wp_peerKeys_isKeyText {publicKey : Option String} {w : World} :
    wp (daemonSem base64Keys) (fun _ _ => True) (peerKeys publicKey)
      (returning fun keys _ => IsKeyText keys.1) w := by
  cases publicKey with
  | some publicKey =>
    simp only [peerKeys]
    generalize hstripped : String.ofList (stripChars publicKey.toList) = key
    have hstrip : stripChars key.toList = key.toList := by
      rw [← hstripped, String.toList_ofList, stripChars_stripChars]
    by_cases hvalid : isValidWgKey key = true
    · rw [if_pos hvalid]
      exact isKeyText_of_isValidWgKey hstrip hvalid
    · rw [if_neg hvalid]
      exact True.intro
  | none =>
    have hreturn : ∀ (pair : KeyPair) (w' : World), IsKeyText pair.publicKey →
        wp (daemonSem base64Keys) (fun _ _ => True)
          (Prog.ret (pair.publicKey, some pair.privateKey) : Daemon (String × Option String))
          (returning fun keys _ => IsKeyText keys.1) w' := fun _ _ hkey => hkey
    exact wp_bind_returning wp_generateKeypair_isKeyText hreturn

theorem MirrorsPeers.added {port : Nat} {privateKey : String} {w w' : World} {owner : Owner}
    {userId : Int} {peer : Peer} (h : MirrorsPeers port privateKey w)
    (hadded : PeerAdded owner (usernameOf userId) w peer w') (hkey : IsKeyText peer.publicKey) :
    MirrorsPeers port privateKey w' := by
  have hpeers : w'.db.peers = w.db.peers ++ [peer] := by rw [hadded.db]
  refine ⟨?_, ?_, ?_⟩
  · rw [hadded.file, h.file, hpeers]
    simp [serverText, String.append_assoc]
  · rw [hpeers, List.forall_mem_append]
    exact ⟨h.keys, by simpa using hkey⟩
  · rw [hpeers, List.forall_mem_append]
    refine ⟨h.names, ?_⟩
    have hname := oneLine_usernameOf userId
    rw [← hadded.username_eq] at hname
    simpa using hname

theorem MirrorsPeers.removed {port : Nat} {privateKey : String} {w w' : World} {username : String}
    (h : MirrorsPeers port privateKey w) (hkey : IsKeyText privateKey)
    (hdb : w'.db = (w.db.removePeer username).2)
    (hfile : w'.wg.serverConfig = rewrittenConfig w.db username w.wg.serverConfig) :
    MirrorsPeers port privateKey w' := by
  have hpeers : w'.db.peers = w.db.peers.filter fun p => p.username ≠ username := by
    rw [hdb]
    rfl
  refine ⟨?_, ?_, ?_⟩
  · rw [hfile, rewrittenConfig, h.file, serverConfigHeader_serverText hkey, hpeers]
    rfl
  · rw [hpeers]
    exact fun peer hpeer => h.keys peer (List.mem_of_mem_filter hpeer)
  · rw [hpeers]
    exact fun peer hpeer => h.names peer (List.mem_of_mem_filter hpeer)

theorem PeerHistory.mirrorsPeers {port : Nat} {privateKey : String} {w : World}
    (h : PeerHistory port privateKey w) (hkey : IsKeyText privateKey) :
    MirrorsPeers port privateKey w := by
  induction h with
  | start hpeers hfile =>
    refine ⟨?_, ?_, ?_⟩
    · rw [hfile, hpeers]
      simp [serverText]
    · simp [hpeers]
    · simp [hpeers]
  | added _ hends ih =>
    have hout := hends.of_wp (wp_addPeer wp_peerKeys_isKeyText)
    exact ih.added hout.1 hout.2
  | @removed w w' userId removed _ hends ih =>
    have hout := hends.of_wp wp_removePeer
    cases removed with
    | true => exact ih.removed hkey hout.2.1 hout.2.2
    | false =>
      obtain ⟨-, hdb, hfile⟩ := hout
      exact ⟨by rw [hfile, hdb, ih.file], by rw [hdb]; exact ih.keys, by rw [hdb]; exact ih.names⟩

/-- **The server file mirrors the table**: byte for byte, and the section of the interface still
    reads as it was written. -/
theorem serverFile_mirrors {port : Nat} {privateKey : String} {w : World}
    (hkey : IsKeyText privateKey) (h : PeerHistory port privateKey w) :
    w.wg.serverConfig = String.join (initServerContents port privateKey :: w.db.peers.map peerBlock) ∧
    parseInterfaceSection w.wg.serverConfig = .ok (interfaceSection port privateKey) := by
  have hmirrors := h.mirrorsPeers hkey
  refine ⟨hmirrors.file, ?_⟩
  rw [hmirrors.file]
  exact parseInterfaceSection_serverText hkey hmirrors.keys hmirrors.names

/-- A host right after `init_server`. -/
def freshServer : World where
  db := Db.empty
  docker := Docker.empty
  filter := fun _ => none
  wg := ⟨initServerContents 51820 "server", [], []⟩
  spawnPermits := 4

/-- What an uneventful run that returns leaves. -/
def quietEnd {α : Type} (p : Daemon α) (w : World) : Option World :=
  match daemonMachine.run quietChoice p w with
  | some (_, .ok _, w') => some w'
  | _ => none

theorem base64Keys_quietChoice (op : DaemonOp) : base64Keys op (quietChoice op) := by
  have hprivate : IsKeyText "private" := by decide
  have hpublic : IsKeyText "public" := by decide
  unfold base64Keys
  split
  · rintro k ⟨⟩
    exact hprivate
  · rintro k ⟨⟩
    exact hpublic
  · trivial

theorem ends_of_quietEnd {α : Type} {p : Daemon α} {w w' : World} (h : quietEnd p w = some w') :
    ∃ value, Ends (daemonSem base64Keys) p w (.ok value) w' := by
  unfold quietEnd at h
  split at h
  · rename_i trace value w'' hrun
    cases h
    exact ⟨value, trace, Machine.runs_of_run base64Keys_quietChoice hrun⟩
  · cases h

/-- Two peers come, and the first one goes. -/
def twoPeersOneLeft : Option World := do
  let w ← quietEnd (addPeer ⟨"team", 1⟩ (usernameOf 5) ⟨"server", "public", "vpn", 51820⟩ none)
    freshServer
  let w ← quietEnd (addPeer ⟨"team", 2⟩ (usernameOf 7) ⟨"server", "public", "vpn", 51820⟩ none) w
  quietEnd (removePeer (usernameOf 5)) w

theorem twoPeersOneLeft_leaves :
    twoPeersOneLeft.any (fun w => w.db.peers.map Peer.username = ["user_7"]) = true := by
  decide +kernel

theorem serverFile_mirrors_twoPeers : ∃ w, (PeerHistory 51820 "server" w ∧
      w.db.peers.map Peer.username = ["user_7"]) ∧
    w.wg.serverConfig = String.join (initServerContents 51820 "server" :: w.db.peers.map peerBlock) ∧
    parseInterfaceSection w.wg.serverConfig = .ok (interfaceSection 51820 "server") := by
  obtain ⟨w, hw, hleft⟩ := (Option.any_eq_true _ _).mp twoPeersOneLeft_leaves
  simp only [twoPeersOneLeft, Option.bind_eq_bind, Option.bind_eq_some_iff] at hw
  obtain ⟨w₁, hfirst, w₂, hsecond, hthird⟩ := hw
  obtain ⟨_, hfirst⟩ := ends_of_quietEnd hfirst
  obtain ⟨_, hsecond⟩ := ends_of_quietEnd hsecond
  obtain ⟨_, hthird⟩ := ends_of_quietEnd hthird
  have hstart : PeerHistory 51820 "server" freshServer := PeerHistory.start rfl rfl
  have hhistory := ((hstart.added hfirst).added hsecond).removed hthird
  exact ⟨w, ⟨hhistory, of_decide_eq_true hleft⟩,
    serverFile_mirrors (by decide) hhistory⟩

end EdoPlugin
