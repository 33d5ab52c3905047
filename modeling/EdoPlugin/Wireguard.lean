import EdoPlugin.Network
import EdoPlugin.Text

/-!
# The WireGuard plane

`wireguard.py`: key pairs, the server configuration, and the creation and removal of a peer.  A peer
lives in four places (the `peers` table, `wg0.conf`, the live interface and a client file); each of
them is written by its own call, and any of the calls may fail.
-/

namespace EdoPlugin

open Interaction

/-! ## Keys -/

structure KeyPair where
  privateKey : String
  publicKey : String
deriving DecidableEq, Repr

/-- `_run(["wg", ...])` with a `CalledProcessError` turned into a `RuntimeError`. -/
def wgOutput (what : String) (result : Except CmdFault String) : Daemon String :=
  match checked "wg" result with
  | .ok text => return text
  | .error (.calledProcessError stderr) => .raise (.runtimeError s!"{what}: {stderr}")
  | .error err => .raise err

def generateKeypair : Daemon KeyPair := do
  let priv ← callWg .genkey
  let privateKey ← wgOutput "wg key generation failed" priv
  let pub ← callWg (.pubkey privateKey)
  let publicKey ← wgOutput "wg key generation failed" pub
  return ⟨privateKey, publicKey⟩

def derivePubkey (privateKey : String) : Daemon String := do
  let pub ← callWg (.pubkey privateKey)
  wgOutput "wg pubkey failed" pub

def isBase64Char (c : Char) : Bool := c.isAlphanum || c == '+' || c == '/'

/-- 44 characters that decode to 32 bytes: 43 of the alphabet and one padding sign. -/
def isValidWgKey (key : String) : Bool :=
  let cs := stripChars key.toList
  cs.length == 44 && cs.getLast? == some '=' && cs.dropLast.all isBase64Char

/-! ## The server -/

structure ServerConfig where
  privateKey : String
  publicKey : String
  endpoint : String
  listenPort : Nat
deriving DecidableEq, Repr

def wgServerConfigPath : String := "/etc/wireguard/wg0.conf"

def loadServerConfig (endpoint : String) (port : Nat) : Daemon ServerConfig := do
  let parsed ← callWg .parseInterfaceSection
  let iface ← (Prog.ofExcept parsed : Daemon (List (String × String)))
  let privateKey := (iface.lookup "PrivateKey").getD ""
  if privateKey = "" then
    .raise (.runtimeError s!"no PrivateKey in [Interface] of {wgServerConfigPath}")
  else
    let publicKey ← derivePubkey privateKey
    return ⟨privateKey, publicKey, endpoint, port⟩

/-- The block of one peer in `wg0.conf`. -/
def peerBlock (peer : Peer) : String :=
  s!"\n[Peer]\n# {peer.username}\nPublicKey = {peer.publicKey}\n" ++
    s!"AllowedIPs = {addressStr peer.ipAddress}/32\n"

def appendPeerToServerConfig (peer : Peer) : Daemon Unit := do
  let appended ← callWg (.appendServerConfig (peerBlock peer))
  Prog.ofExcept appended

/-- The text of `wg0.conf` before its first peer. -/
def serverConfigHeader (text : String) : String :=
  String.ofList (rstripChars (charsBefore "[Peer]".toList text.toList)) ++ "\n"

def rewriteServerConfig (excludeUsername : String) : Daemon Unit := do
  let content ← callWg .readServerConfig
  let text ← (Prog.ofExcept content : Daemon String)
  let peers ← callDb .getAllPeers
  let blocks := (peers.filter fun p => p.username ≠ excludeUsername).map peerBlock
  let written ← callWg (.writeServerConfig (String.join (serverConfigHeader text :: blocks)))
  Prog.ofExcept written

/-- `_run(["wg", "set", ...])` whose non-zero exit is only logged. -/
def loggedWg (result : Except CmdFault Unit) : Daemon Unit :=
  match checked "wg" result with
  | .ok () => return ()
  | .error (.calledProcessError _) => return ()
  | .error err => .raise err

def liveAddPeer (peer : Peer) : Daemon Unit := do
  let set ← callWg (.setPeer peer.publicKey peer.ipAddress)
  loggedWg set

/-! ## Client configurations -/

def clientKeyPlaceholder : String := "<PASTE_YOUR_PRIVATE_KEY_HERE>"

/-- The private key line with the note before it; an empty key counts as none. -/
def privateKeyLines (privateKey : Option String) : String :=
  let key := privateKey.getD ""
  if key = "" then
    "# NOTE: replace the PrivateKey placeholder below with your own private key.\n" ++
      s!"PrivateKey = {clientKeyPlaceholder}\n"
  else
    s!"PrivateKey = {key}\n"

def renderClientConfig (peer : Peer) (server : ServerConfig) : String :=
  "[Interface]\n" ++
  s!"# edo: client config for {peer.username}\n" ++
  privateKeyLines peer.privateKey ++
  s!"Address = {addressStr peer.ipAddress}/32\n" ++
  "DNS = 1.1.1.1\n\n" ++
  "[Peer]\n" ++
  s!"PublicKey = {server.publicKey}\n" ++
  s!"Endpoint = {server.endpoint}\n" ++
  s!"AllowedIPs = {wgSubnet.str}, {dockerPool.str}\n" ++
  "PersistentKeepalive = 25\n"

structure ClientConfig where
  peer : Peer
  configText : String
deriving DecidableEq, Repr

/-! ## Peers -/

/-- The keys of a new peer: the caller's public key, or a fresh pair kept on the server. -/
def peerKeys : Option String → Daemon (String × Option String)
  | some publicKey =>
    let key := String.ofList (stripChars publicKey.toList)
    if isValidWgKey key then return (key, none)
    else .raise (.valueError s!"'{key}' is not a valid WireGuard public key")
  | none => do
    let pair ← generateKeypair
    return (pair.publicKey, some pair.privateKey)

/-- The `try` of `add_peer`: the server file, the live interface and the client file. -/
def publishPeer (peer : Peer) (server : ServerConfig) : Daemon String := do
  appendPeerToServerConfig peer
  liveAddPeer peer
  let clientText := renderClientConfig peer server
  let made ← callWg .mkClientsDir
  (Prog.ofExcept made : Daemon Unit)
  let written ← callWg (.writeClientFile peer.username clientText)
  (Prog.ofExcept written : Daemon Unit)
  let protected_ ← callWg (.chmodClientFile peer.username)
  (Prog.ofExcept protected_ : Daemon Unit)
  return clientText

/-- The `except Exception` of `add_peer`: forget the row and raise the error again. -/
def rollBackPeer (username : String) (err : PyErr) : Daemon String := do
  let _ ← callDb (.removePeer username)
  .raise err

def addPeer (owner : Owner) (username : String) (server : ServerConfig)
    (publicKey : Option String) : Daemon ClientConfig := do
  let keys ← peerKeys publicKey
  let allocated ← callDb (.allocatePeer owner username keys.1 peerCandidateIps keys.2)
  let peer ← (Prog.ofExcept allocated : Daemon Peer)
  let clientText ← (publishPeer peer server).catching (rollBackPeer username)
  return ⟨peer, clientText⟩

/-- The end of `remove_peer`, once the peer is known. -/
def removeKnownPeer (peer : Peer) (username : String) : Daemon Bool := do
  let removed ← callWg (.removeLivePeer peer.publicKey)
  loggedWg removed
  rewriteServerConfig username
  let _ ← callDb (.removePeer username)
  let unlinked ← callWg (.unlinkClientFile username)
  (Prog.ofExcept unlinked : Daemon Unit)
  return true

def removePeer (username : String) : Daemon Bool := do
  let found ← callDb (.getPeer username)
  match found with
  | none => return false
  | some peer => removeKnownPeer peer username

end EdoPlugin
