import EdoPlugin.CallRules
import EdoPlugin.JointEffects
import EdoPlugin.RpcCodec

/-!
# A daemon behind its socket

`_serve_one` reads a frame from its connection, runs one handler over the daemon's world, and sends the
answer.  Here both are part of one program: the connection and the world are the two environments of
`Effect.sum`.  A typed request of the plugin comes to exactly what its handler comes to, and no bytes
from anyone make the daemon do more than run one handler once.
-/

namespace EdoPlugin

open Interaction

/-- A piece of the daemon's code that also has a connection. -/
@[reducible] def serviceEffect : Effect := (streamEffect UInt8).sum daemonEffect

abbrev Service (α : Type) : Type := Prog serviceEffect ServeError α

def onConnection {α : Type} (p : Wire ServeError α) : Service α := p.first daemonEffect id

theorem onConnection_ret {α : Type} (value : α) : onConnection (.ret value) = .ret value := rfl

/-- Any exception of a handler is caught with its text. -/
def onWorld {α : Type} (p : Daemon α) : Service α :=
  p.second (streamEffect UInt8) fun err => .raised err.wireText

namespace Rpc

/-! ## The handlers -/

section Handlers

variable (env : DaemonEnv) (text : WireText) (codec : JsonCodec)
  (unread : String → Json → Daemon Json)

/-- Go on with what was read from the parameters.  What a handler does with a value of a type that no
    caller sends is `unread`. -/
def reading {α : Type} (method : String) (params : Json) (read : Reading α)
    (body : α → Daemon Json) : Daemon Json :=
  match read with
  | .ok value => body value
  | .error (some err) => .raise err
  | .error none => unread method params

/-- Run the handler of a request and turn its result into JSON. -/
def serve (request : Request) : Daemon Json := do
  let reply ← handle env request
  return request.replyJson text reply

/-- The handler that reads its whole request first. -/
def handler (method : String) (read : Json → Reading Request) : String × (Json → Daemon Json) :=
  (method, fun params => reading unread method params (read params) (serve env text))

/-- `handle_container_ensure_instance` reads the security profile before it takes the semaphore, and
    the other arguments after. -/
def handleContainerEnsureInstance (params : Json) : Daemon Json :=
  let method := "container.ensure_instance"
  reading unread method params (readSecurity text params) fun profile =>
    match readSpawn text codec params profile with
    | .ok request => serve env text request
    | .error (some err) => withSpawnSemaphore (.raise err)
    | .error none => unread method params

/-- `METHODS`. -/
def methods : List (String × (Json → Daemon Json)) := [
  handler env text unread "ping" fun _ => .ok .ping,
  handler env text unread "wg.ensure_peer" (readEnsurePeer text),
  handler env text unread "wg.remove_peer" (readUser text .wgRemovePeer),
  handler env text unread "wg.render_config" (readUser text .wgRenderConfig),
  ("container.ensure_instance", handleContainerEnsureInstance env text codec unread),
  handler env text unread "container.release_instance" (readContainer text .containerReleaseInstance),
  handler env text unread "container.reconcile" fun _ => .ok .containerReconcile,
  handler env text unread "container.inspect" (readContainer text .containerInspect),
  handler env text unread "kill_switch" fun _ => .ok .killSwitch]

variable {text}

/-- **A request is read as it was sent**: its method leads to its handler, on its arguments. -/
theorem lookup_methods (env : DaemonEnv) (codec : JsonCodec) (unread : String → Json → Daemon Json)
    {request : Request} (hsend : request.Sendable text) :
    ((methods env text codec unread).lookup request.method).map
      (fun handler => handler (.obj (request.params text))) = some (serve env text request) := by
  cases request with
  | ping | containerReconcile | killSwitch => rfl
  | wgEnsurePeer userId owner =>
    show some (reading unread _ _ (readEnsurePeer text _) _) = _
    rw [readEnsurePeer_params]
    rfl
  | wgRemovePeer userId => rfl
  | wgRenderConfig userId => rfl
  | containerReleaseInstance containerId =>
    show some (reading unread _ _ (readContainer text _ (.obj [("container_id", _)])) _) = _
    rw [readContainer_params]
    rfl
  | containerInspect containerId =>
    show some (reading unread _ _ (readContainer text _ (.obj [("container_id", _)])) _) = _
    rw [readContainer_params]
    rfl
  | containerEnsureInstance owner challengeRef buildPath profile ttlSeconds publishPorts =>
    show some (reading unread _ _ (readSecurity text _) _) = _
    rw [readSecurity_params hsend]
    dsimp only [reading]
    rw [readSpawn_params]

end Handlers

/-! ## One connection -/

section Serve

variable (codec : JsonCodec) (methods : List (String × (Json → Daemon Json)))

/-- `METHODS.get(method)` -/
def findHandler : Json → Service (Option (Json → Daemon Json))
  | .str name => return methods.lookup name
  | .arr _ => .raise (.typeError "unhashable type: 'list'")
  | .obj _ => .raise (.typeError "unhashable type: 'dict'")
  | _ => return none

def reply (fields : List (String × Json)) : Service Unit := onConnection (Server.reply codec fields)

/-- The handler and its answer. -/
def answer (handler : Json → Daemon Json) (params : Json) : Service Unit :=
  let attempt : Service Unit := do
    let result ← onWorld (handler params)
    reply codec [("ok", .bool true), ("result", result)]
  attempt.catching fun err => reply codec [("ok", .bool false), ("error", .str err.str)]

/-- A request that has been received. -/
def dispatch (req : Json) : Service Unit := do
  let found ← onConnection (Server.field req "method")
  let method := found.getD (.str "")
  let handler ← findHandler methods method
  match handler with
  | none => reply codec [("ok", .bool false), ("error", .str s!"unknown method: {codec.text method}")]
  | some handler =>
    let given ← onConnection (Server.field req "params")
    let params := match given with
      | some params => if params.truthy then params else .obj []
      | none => .obj []
    answer codec handler params

/-- The body of `_serve_one`. -/
def serveRequest (allowedUid : Option Int) (uid : Int) : Service Unit := do
  if Server.authorized allowedUid uid then
    let header ← onConnection (Server.recvExact 4)
    let length := unpackWord header
    if 4 * 1024 * 1024 < length then
      reply codec [("ok", .bool false), ("error", .str "payload too large")]
    else
      let payload ← onConnection (Server.recvExact length)
      match codec.loads payload with
      | .error err => .raise (.ofLoads err)
      | .ok req => dispatch codec methods req
  else reply codec [("ok", .bool false), ("error", .str "unauthorized")]

/-- `_serve_one` -/
def serveOne (allowedUid : Option Int) (uid : Int) : Service Unit :=
  (serveRequest codec methods allowedUid uid).catching fun err =>
    match err with
    | .connectionError _ | .structError _ | .jsonDecodeError _ => return ()
    | other => .raise other

end Serve

end Rpc

/-- The connection hands out what has arrived; the world answers under a policy. -/
abbrev serviceSem (policy : Policy) : Sem serviceEffect (Endpoint UInt8 × World) :=
  streamSem.sum (daemonSem policy)

namespace Rpc

/-! ## What a connection can do to the world -/

/-- The parameters of a request, `req.get("params") or {}`. -/
def paramsOf (fields : List (String × Json)) : Json :=
  match fields.lookup "params" with
  | some params => if params.truthy then params else .obj []
  | none => .obj []

/-- A handler has run, on the parameters of a request. -/
def RanHandler (policy : Policy) (methods : List (String × (Json → Daemon Json)))
    (fields : List (String × Json)) (w w' : World) : Prop :=
  ∃ name handler out, (fields.lookup "method").getD (.str "") = .str name ∧
    methods.lookup name = some handler ∧ Ends (daemonSem policy) (handler (paramsOf fields)) w out w'

/-- One complete frame has been read, and one handler has run on it. -/
def HandledFrame (policy : Policy) (codec : JsonCodec) (methods : List (String × (Json → Daemon Json)))
    (incoming rest : List UInt8) (w w' : World) : Prop :=
  ∃ header payload fields, incoming = header ++ payload ++ rest ∧ header.length = 4 ∧
    unpackWord header = payload.length ∧ payload.length ≤ 4 * 1024 * 1024 ∧
    codec.loads payload = .ok (.obj fields) ∧ RanHandler policy methods fields w w'

section AnyBytes

variable {policy : Policy} {codec : JsonCodec} {methods : List (String × (Json → Daemon Json))}
  {s : Endpoint UInt8} {w : World}

/-- A reply reads nothing and leaves the world alone. -/
theorem wp_reply_keeps {fields : List (String × Json)} :
    wp (serviceSem policy) (fun _ _ => True) (reply codec fields)
      (fun _ s' => s'.1.incoming = s.incoming ∧ s'.2 = w) (s, w) := by
  apply wp_first
  unfold Server.reply Server.sendFramed
  split
  · refine ⟨trivial, ?_⟩
    rintro _ s' rfl
    exact ⟨rfl, rfl⟩
  · exact ⟨rfl, rfl⟩

theorem wp_answer_ran {handler : Json → Daemon Json} {params : Json} :
    wp (serviceSem policy) (fun _ _ => True) (answer codec handler params)
      (fun _ s' => s'.1.incoming = s.incoming ∧
        ∃ out, Ends (daemonSem policy) (handler params) w out s'.2) (s, w) := by
  apply wp_catching.mpr
  apply wp_bind.mpr
  apply wp_second
  apply wp_mono wp_ends
  intro out w' hends
  cases out with
  | ok result =>
    apply wp_mono wp_reply_keeps
    rintro out ⟨s', w''⟩ ⟨hincoming, rfl⟩
    cases out with
    | ok _ => exact ⟨hincoming, _, hends⟩
    | error err =>
      apply wp_mono (wp_reply_keeps (s := s') (w := w''))
      rintro _ ⟨s'', _⟩ ⟨hincoming', rfl⟩
      exact ⟨hincoming'.trans hincoming, _, hends⟩
  | error err =>
    apply wp_mono wp_reply_keeps
    rintro _ ⟨s', _⟩ ⟨hincoming, rfl⟩
    exact ⟨hincoming, _, hends⟩

theorem wp_dispatch_ran {req : Json} :
    wp (serviceSem policy) (fun _ _ => True) (dispatch codec methods req)
      (fun _ s' => s'.1.incoming = s.incoming ∧ (s'.2 = w ∨
        ∃ fields, req = .obj fields ∧ RanHandler policy methods fields w s'.2)) (s, w) := by
  have hreply : ∀ {fields : List (String × Json)},
      wp (serviceSem policy) (fun _ _ => True) (reply codec fields)
        (fun _ s' => s'.1.incoming = s.incoming ∧ (s'.2 = w ∨
          ∃ fields, req = .obj fields ∧ RanHandler policy methods fields w s'.2)) (s, w) := by
    intro fields
    apply wp_mono wp_reply_keeps
    rintro _ _ ⟨hincoming, hworld⟩
    exact ⟨hincoming, Or.inl hworld⟩
  cases req with
  | obj fields =>
    show wp _ _ (Prog.bind (findHandler methods ((fields.lookup "method").getD (.str ""))) _) _ _
    cases hmethod : (fields.lookup "method").getD (.str "") with
    | str name =>
      cases hname : methods.lookup name with
      | none =>
        simp only [findHandler, hname, Prog.pure_eq, Prog.bind_ret]
        exact hreply
      | some handler =>
        simp only [findHandler, hname, Prog.pure_eq, Prog.bind_ret]
        show wp _ _ (answer codec handler (paramsOf fields)) _ _
        apply wp_mono wp_answer_ran
        rintro _ _ ⟨hincoming, out, hends⟩
        exact ⟨hincoming, Or.inr ⟨fields, rfl, ⟨name, handler, out, hmethod, hname, hends⟩⟩⟩
    | null | bool _ | int _ | float _ => exact hreply
    | arr _ | obj _ => exact ⟨rfl, Or.inl rfl⟩
  | _ => exact ⟨rfl, Or.inl rfl⟩

theorem wp_recvExact_took {n : Nat} {Q : Except ServeError (List UInt8) → Endpoint UInt8 × World → Prop}
    (herror : ∀ err s', Q (.error err) (s', w))
    (hok : ∀ got s', got.length = n → s.incoming = got ++ s'.incoming → Q (.ok got) (s', w)) :
    wp (serviceSem policy) (fun _ _ => True) (onConnection (Server.recvExact n)) Q (s, w) := by
  apply wp_first
  apply wp_mono wp_recvExactly_took
  intro out s' hout
  cases out with
  | error err => exact herror _ _
  | ok got =>
    obtain ⟨items, rfl, -, hlength, hincoming⟩ := hout got rfl
    exact hok _ _ (hlength (Nat.zero_le n)) hincoming

end AnyBytes

/-- Whatever bytes arrive, from whoever: the world is left alone, or the caller is authorised and one
    handler has run once, on one complete frame. -/
theorem serveOne_handlesOneFrame (policy : Policy) (codec : JsonCodec)
    (methods : List (String × (Json → Daemon Json))) (allowedUid : Option Int) (uid : Int)
    (s s' : Endpoint UInt8) (w w' : World) (out : Except ServeError Unit)
    (h : Ends (serviceSem policy) (serveOne codec methods allowedUid uid) (s, w) out (s', w')) :
    w' = w ∨ Server.authorized allowedUid uid = true ∧
      HandledFrame policy codec methods s.incoming s'.incoming w w' := by
  apply h.of_wp (G := fun _ _ => True) (Q := fun _ s' => s'.2 = w ∨
    Server.authorized allowedUid uid = true ∧
      HandledFrame policy codec methods s.incoming s'.1.incoming w s'.2)
  apply wp_catching.mpr
  apply wp_mono (Q := fun _ s' => s'.2 = w ∨ Server.authorized allowedUid uid = true ∧
    HandledFrame policy codec methods s.incoming s'.1.incoming w s'.2)
  · unfold serveRequest
    split
    · rename_i hauth
      apply wp_bind.mpr
      apply wp_recvExact_took
      · exact fun _ _ => Or.inl rfl
      · intro header s₁ hheader hincoming
        rw [andThen_ok]
        dsimp only
        split
        · apply wp_mono wp_reply_keeps
          exact fun _ _ hkeeps => Or.inl hkeeps.2
        · rename_i hsmall
          apply wp_bind.mpr
          apply wp_recvExact_took
          · exact fun _ _ => Or.inl rfl
          · intro payload s₂ hpayload hincoming'
            rw [andThen_ok]
            cases hloads : codec.loads payload with
            | error err => exact Or.inl rfl
            | ok req =>
              apply wp_mono wp_dispatch_ran
              rintro _ s₃ ⟨hrest, hworld | ⟨fields, rfl, hran⟩⟩
              · exact Or.inl hworld
              · refine Or.inr ⟨hauth, ⟨header, payload, fields, ?_, hheader, hpayload.symm, ?_, hloads,
                  hran⟩⟩
                · rw [hincoming, hincoming', hrest, List.append_assoc]
                · rw [hpayload]
                  exact Nat.not_lt.mp hsmall
    · apply wp_mono wp_reply_keeps
      exact fun _ _ hkeeps => Or.inl hkeeps.2
  · intro out s'' hQ
    cases out with
    | ok _ => exact hQ
    | error err => cases err <;> exact hQ

section History

variable (policy : Policy) (codec : JsonCodec) (methods : List (String × (Json → Daemon Json)))
  (allowedUid : Option Int)

/-- Connections served one after another, each with the uid of its caller and the bytes it brings. -/
inductive ConnectionRun : World → List (Int × List UInt8) → World → Prop
  | nil {w} : ConnectionRun w [] w
  | serve {w w₁ w₂ uid bytes conns s out} :
      Ends (serviceSem policy) (serveOne codec methods allowedUid uid) (⟨bytes, []⟩, w) out (s, w₁) →
      ConnectionRun w₁ conns w₂ → ConnectionRun w ((uid, bytes) :: conns) w₂

/-- Handlers that ran one after another, each on a frame at the start of some bytes. -/
inductive HandlerRun : World → List (List UInt8) → World → Prop
  | nil {w} : HandlerRun w [] w
  | handle {w w₁ w₂ bytes rest frames} : HandledFrame policy codec methods bytes rest w w₁ →
      HandlerRun w₁ frames w₂ → HandlerRun w (bytes :: frames) w₂

variable {policy codec methods allowedUid}

/-- **What comes over the socket can only run handlers**: in any history of connections the world is
    what a run of handlers leaves, at most one for a connection, each for an authorised caller and on a
    complete frame. -/
theorem connections_runHandlers (policy : Policy) (codec : JsonCodec)
    (methods : List (String × (Json → Daemon Json))) (allowedUid : Option Int) (w w' : World)
    (conns : List (Int × List UInt8)) (h : ConnectionRun policy codec methods allowedUid w conns w') :
    ∃ served : List (Int × List UInt8), served.Sublist conns ∧ (∀ conn ∈ served, Server.authorized allowedUid conn.1 = true) ∧
      HandlerRun policy codec methods w (served.map Prod.snd) w' := by
  induction h with
  | nil => exact ⟨[], List.Sublist.slnil, fun _ hmem => absurd hmem List.not_mem_nil, .nil⟩
  | @serve w w₁ w₂ uid bytes conns s out hserve _ ih =>
    obtain ⟨served, hsublist, hauth, hrun⟩ := ih
    rcases serveOne_handlesOneFrame policy codec methods allowedUid uid _ _ _ _ _ hserve with
      rfl | ⟨huid, hframe⟩
    · exact ⟨served, hsublist.cons _, hauth, hrun⟩
    · refine ⟨(uid, bytes) :: served, hsublist.cons_cons _, ?_, .handle hframe hrun⟩
      intro conn hmem
      rcases List.mem_cons.mp hmem with rfl | hmem
      · exact huid
      · exact hauth conn hmem

end History

/-! ## A typed request over the wire -/

/-- The answer to a request whose handler has come to `out`. -/
def answerJson (text : WireText) (request : Request) : Except PyErr Reply → Json
  | .ok reply => .dict [("ok", .bool true), ("result", request.replyJson text reply)]
  | .error err => .dict [("ok", .bool false), ("error", .str err.wireText)]

section Call

variable {policy : Policy} {codec : JsonCodec} {text : WireText} {env : DaemonEnv}
  {unread : String → Json → Daemon Json} {w : World} {request : Request} {ts : Int}
  {s : Endpoint UInt8} {rest : List UInt8}

/-- What a handler comes to, with its result as JSON. -/
def servedOutcome (text : WireText) (request : Request) : Except PyErr Reply → Except PyErr Json
  | .ok reply => .ok (request.replyJson text reply)
  | .error err => .error err

theorem ends_serve {out : Except PyErr Reply} {w' : World}
    (h : Ends (daemonSem policy) (handle env request) w out w') :
    Ends (daemonSem policy) (serve env text request) w (servedOutcome text request out) w' := by
  cases out with
  | ok reply => exact h.bind .ret
  | error err => exact h.bind_error

theorem ends_reply {fields : List (String × Json)}
    (hfits : (codec.dumps (.dict fields)).length < 2 ^ 32) :
    Ends (serviceSem policy) (reply codec fields) (s, w) (.ok ())
      ({ s with sent := s.sent ++ framed (codec.dumps (.dict fields)) }, w) := by
  have hsend : Ends streamSem (Server.reply codec fields) s (.ok ())
      { s with sent := s.sent ++ framed (codec.dumps (.dict fields)) } := by
    unfold Server.reply Server.sendFramed
    rw [if_pos hfits]
    exact .perform rfl
  exact hsend.first id

theorem ends_answer_typed {handler : Json → Daemon Json} {params : Json} {out : Except PyErr Reply}
    {w' : World} (hhandler : handler params = serve env text request)
    (h : Ends (daemonSem policy) (handle env request) w out w')
    (hfits : (codec.dumps (answerJson text request out)).length < 2 ^ 32) :
    Ends (serviceSem policy) (answer codec handler params) (s, w) (.ok ())
      ({ s with sent := s.sent ++ framed (codec.dumps (answerJson text request out)) }, w') := by
  have hserve : Ends (serviceSem policy) (onWorld (handler params)) (s, w)
      (translated (fun err => .raised err.wireText) (servedOutcome text request out)) (s, w') := by
    rw [hhandler]
    exact (ends_serve h).second s _
  cases out with
  | ok reply => exact Ends.catching_ok (hserve.bind (ends_reply hfits))
  | error err => exact Ends.catching_error hserve.bind_error (ends_reply hfits)

/-- The frame of the typed request. -/
def requestFrame (codec : JsonCodec) (text : WireText) (request : Request) (ts : Int) : List UInt8 :=
  framed (codec.dumpsSorted (Client.request request.method (some (request.params text)) ts))

/-- What is dispatched is the handler of the request, on its parameters. -/
theorem dispatch_request (codec : JsonCodec) (env : DaemonEnv) (unread : String → Json → Daemon Json)
    (ts : Int) (hsend : request.Sendable text) :
    ∃ handler : Json → Daemon Json,
      handler (.obj (request.params text)) = serve env text request ∧
      dispatch codec (methods env text codec unread)
        (Client.request request.method (some (request.params text)) ts) =
          answer codec handler (.obj (request.params text)) := by
  obtain ⟨handler, hlookup, hhandler⟩ := Option.map_eq_some_iff.mp
    (lookup_methods env codec unread hsend)
  refine ⟨handler, hhandler, ?_⟩
  unfold dispatch
  rw [field_method, field_params]
  simp only [onConnection_ret, Prog.bind_eq, Prog.bind_ret, Option.getD_some, findHandler, hlookup,
    Prog.pure_eq, orEmpty_obj]

theorem ends_serveOne_typed {allowedUid : Option Int} {uid : Int} {out : Except PyErr Reply}
    {w' : World} (hauth : Server.authorized allowedUid uid = true) (hsend : request.Sendable text)
    (hdecodes : codec.loads (codec.dumpsSorted
      (Client.request request.method (some (request.params text)) ts)) =
        .ok (Client.request request.method (some (request.params text)) ts))
    (hrequest : (codec.dumpsSorted
      (Client.request request.method (some (request.params text)) ts)).length ≤ 4 * 1024 * 1024)
    (hanswer : (codec.dumps (answerJson text request out)).length < 2 ^ 32)
    (hends : Ends (daemonSem policy) (handle env request) w out w')
    (hincoming : s.incoming = requestFrame codec text request ts ++ rest) :
    Ends (serviceSem policy) (serveOne codec (methods env text codec unread) allowedUid uid) (s, w)
      (.ok ()) (⟨rest, s.sent ++ framed (codec.dumps (answerJson text request out))⟩, w') := by
  have hunpack := unpackWord_packWord (Nat.lt_of_le_of_lt hrequest (by norm_num))
  rw [requestFrame, framed, List.append_assoc] at hincoming
  obtain ⟨handler, hhandler, hdispatch⟩ := dispatch_request codec env unread ts hsend
  apply Ends.catching_ok
  unfold serveRequest
  rw [if_pos hauth]
  apply Ends.bind ((ends_recvExactly (length_packWord _) hincoming).first id)
  rw [hunpack]
  dsimp only
  rw [if_neg (Nat.not_lt.mpr hrequest)]
  apply Ends.bind ((ends_recvExactly rfl rfl).first id)
  rw [hdecodes]
  dsimp only
  rw [hdispatch]
  exact ends_answer_typed hhandler hends hanswer

section Socket

variable {serve : Service Unit} {payload : List UInt8}

end Socket

end Call

/-- A number in decimal digits. -/
def readDigits (cs : List Char) : Option Nat :=
  if cs ≠ [] ∧ cs.all Char.isDigit = true then some (Nat.ofDigitChars 10 cs 0) else none

theorem readDigits_toDigits (n : Nat) : readDigits (Nat.toDigits 10 n) = some n := by
  have hdigits : (Nat.toDigits 10 n).all Char.isDigit = true :=
    List.all_eq_true.mpr fun _ hc => Nat.isDigit_of_mem_toDigits (by decide) (by decide) hc
  unfold readDigits
  rw [if_pos ⟨Nat.toDigits_ne_nil, hdigits⟩, Nat.ofDigitChars_ten_toDigits]

/-- Ids in decimal digits; no float is sent here. -/
def decimalText : WireText where
  idText := fun id => String.ofList (Nat.toDigits 10 id)
  idOf := fun text => readDigits text.toList
  idOf_idText := fun id => by rw [String.toList_ofList, readDigits_toDigits]
  floatRepr := fun _ => "1.0"
  floatOf := fun _ => some 1

def removalRequest : String :=
  "\x7b\"method\":\"wg.remove_peer\",\"params\":\x7b\"user_id\":7\x7d,\"ts\":0\x7d"

def removalReply (removed : Bool) : String :=
  "\x7b\"ok\":true,\"result\":\x7b\"removed\":" ++ (if removed then "true" else "false") ++
    "\x7d\x7d"

/-- The JSON library, on the two texts of a removal. -/
def removalCodec (removed : Bool) : JsonCodec where
  dumps := fun _ => ascii (removalReply removed)
  dumpsSorted := fun _ => ascii removalRequest
  loads := fun bytes =>
    if bytes = ascii removalRequest then
      .ok (Client.request "wg.remove_peer" (some ((Request.wgRemovePeer 7).params decimalText)) 0)
    else if bytes = ascii (removalReply removed) then
      .ok (answerJson decimalText (.wgRemovePeer 7) (.ok (.removed removed)))
    else .error (.jsonDecodeError "Expecting value: line 1 column 1 (char 0)")
  format := Json.typeName

def removalMethods (removed : Bool) : List (String × (Json → Daemon Json)) :=
  methods .default decimalText (removalCodec removed) fun _ _ => .ret .null

/-- The uid is authorised, and the connection ends within the length word. -/
theorem exists_serveOne_short {policy : Policy} {codec : JsonCodec} {w : World}
    {methods : List (String × (Json → Daemon Json))} {allowedUid : Option Int} {uid : Int}
    {bytes : List UInt8} (hauth : Server.authorized allowedUid uid = true) (hshort : bytes.length < 4) :
    ∃ out s, Ends (serviceSem policy) (serveOne codec methods allowedUid uid) (⟨bytes, []⟩, w) out
      (s, w) := by
  obtain ⟨out, s, hends⟩ : ∃ out s, Ends streamSem (Server.recvExact 4) ⟨bytes, []⟩ out s :=
    callsOnly_recvExactly.exists_ends exists_streamSem _
  cases out with
  | ok header =>
    obtain ⟨items, hheader, henough, -, hincoming⟩ := hends.of_wp wp_recvExactly_took header rfl
    rw [hheader, List.nil_append] at henough
    rw [show bytes = items ++ s.incoming from hincoming, List.length_append] at hshort
    omega
  | error err =>
    have hraises : Ends (serviceSem policy) (serveRequest codec methods allowedUid uid)
        (⟨bytes, []⟩, w) (.error err) (s, w) := by
      unfold serveRequest
      rw [if_pos hauth]
      exact (hends.first id).bind_error
    cases err with
    | connectionError _ | structError _ | jsonDecodeError _ =>
      exact ⟨_, s, hraises.catching_error .ret⟩
    | _ => exact ⟨_, s, hraises.catching_error ⟨_, .raise⟩⟩

/-- The seventh user has a peer. -/
def peerWorld : World where
  db := { Db.empty with
    peers := [⟨⟨"team", 1⟩, usernameOf 7, dotted 10 8 0 2, "public", some "private"⟩] }
  docker := Docker.empty
  filter := fun chain => match chain with
    | .dockerUser | .forward | .input => some []
    | .edoForward | .edoInput => none
  wg := ⟨"", [("public", dotted 10 8 0 2)], []⟩
  spawnPermits := 4

theorem peerWorld_removes :
    (daemonMachine.run quietChoice (handle .default (.wgRemovePeer 7)) peerWorld).any (fun result =>
      (match result.2.1 with
        | .ok (.removed true) => true
        | _ => false) && result.2.2.db.peers.isEmpty) = true := by
  decide +kernel

theorem exists_peerRemoved : ∃ w', Ends (daemonSem noFault) (handle .default (.wgRemovePeer 7)) peerWorld
    (.ok (.removed true)) w' ∧ w'.db.peers = [] := by
  obtain ⟨⟨trace, out, w'⟩, hrun, hremoves⟩ := (Option.any_eq_true _ _).mp peerWorld_removes
  obtain ⟨hout, hpeers⟩ := Bool.and_eq_true_iff.mp hremoves
  split at hout
  · rename_i hremoved
    dsimp only at hremoved
    subst hremoved
    exact ⟨w', ⟨trace, Machine.runs_of_run noFault_quietChoice hrun⟩, List.isEmpty_iff.mp hpeers⟩
  · cases hout

/-- A connection that ends within its length word, and one that removes the peer. -/
def cutShortAndRemoval : List (Int × List UInt8) :=
  [(33, (framed (ascii removalRequest)).take 3), (33, framed (ascii removalRequest))]

theorem connections_runHandlers_cutShortAndRemoval : ∃ w',
    ConnectionRun noFault (removalCodec true) (removalMethods true) (some 33) peerWorld
      cutShortAndRemoval w' ∧ w'.db.peers = [] ∧
    ∃ served : List (Int × List UInt8), served.Sublist cutShortAndRemoval ∧
      (∀ conn ∈ served, Server.authorized (some 33) conn.1 = true) ∧
      HandlerRun noFault (removalCodec true) (removalMethods true) peerWorld (served.map Prod.snd)
        w' := by
  obtain ⟨w', hends, hpeers⟩ := exists_peerRemoved
  obtain ⟨out, s, hshort⟩ : ∃ out s, Ends (serviceSem noFault)
      (serveOne (removalCodec true) (removalMethods true) (some 33) 33)
      (⟨(framed (ascii removalRequest)).take 3, []⟩, peerWorld) out (s, peerWorld) :=
    exists_serveOne_short (by decide) (by decide)
  have hdecodes : (removalCodec true).loads (ascii removalRequest) = .ok (Client.request
      "wg.remove_peer" (some ((Request.wgRemovePeer 7).params decimalText)) 0) := by
    simp [removalCodec]
  have hsend : (Request.wgRemovePeer 7).Sendable decimalText := trivial
  have hrequest : (ascii removalRequest).length ≤ 4 * 1024 * 1024 := by decide
  have hanswer : (ascii (removalReply true)).length < 2 ^ 32 := by decide
  have hserved : Ends (serviceSem noFault)
      (serveOne (removalCodec true) (removalMethods true) (some 33) 33)
      (⟨framed (ascii removalRequest), []⟩, peerWorld) (.ok ())
      (⟨[], framed (ascii (removalReply true))⟩, w') :=
    ends_serveOne_typed (by decide) hsend hdecodes hrequest hanswer hends (List.append_nil _).symm
  have hrun : ConnectionRun noFault (removalCodec true) (removalMethods true) (some 33) peerWorld
      cutShortAndRemoval w' := .serve hshort (.serve hserved .nil)
  refine ⟨w', hrun, hpeers, ?_⟩
  exact connections_runHandlers noFault (removalCodec true) (removalMethods true) (some 33) peerWorld w'
    cutShortAndRemoval hrun

end Rpc

end EdoPlugin
