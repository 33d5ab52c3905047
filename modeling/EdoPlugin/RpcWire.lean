import EdoPlugin.Streams

/-!
# The wire protocol

`daemon_client.py` and `edo_daemon.py` each have their own framing: a four-byte length, then a JSON
text.  One call is one connection, on which the client sends a request and the daemon's `_serve_one`
answers it.  How JSON is encoded is a parameter; what the protocol relies on is that decoding undoes
encoding.
-/

namespace EdoPlugin

open Interaction

/-! ## JSON values -/

/-- A JSON value.  A float stands as its `repr`, and an object lists its keys in order, so that equal
    objects are equal terms. -/
inductive Json where
  | null
  | bool (value : Bool)
  | int (value : Int)
  | float (repr : String)
  | str (text : String)
  | arr (items : List Json)
  | obj (fields : List (String × Json))

namespace Json

/-- The order of keys, by code points. -/
def keyBefore (a b : String) : Bool := List.lex a.toList b.toList fun c d => c.toNat < d.toNat

def insertField (key : String) (value : Json) : List (String × Json) → List (String × Json)
  | [] => [(key, value)]
  | field :: fields =>
    if keyBefore key field.1 then (key, value) :: field :: fields
    else field :: insertField key value fields

/-- A dictionary display. -/
def dict (fields : List (String × Json)) : Json :=
  .obj (fields.foldr (fun field => insertField field.1 field.2) [])

def typeName : Json → String
  | .null => "NoneType"
  | .bool _ => "bool"
  | .int _ => "int"
  | .float _ => "float"
  | .str _ => "str"
  | .arr _ => "list"
  | .obj _ => "dict"

/-- `value.get(key)`; the error is the text of an `AttributeError`. -/
def get (value : Json) (key : String) : Except String (Option Json) :=
  match value with
  | .obj fields => .ok (fields.lookup key)
  | other => .error s!"'{other.typeName}' object has no attribute 'get'"

def truthy : Json → Bool
  | .null => false
  | .bool value => value
  | .int value => value ≠ 0
  | .float repr => repr ≠ "0.0" ∧ repr ≠ "-0.0"
  | .str text => text ≠ ""
  | .arr items => !items.isEmpty
  | .obj fields => !fields.isEmpty

end Json

/-- What `json.loads` raises: `JSONDecodeError` for a text that is not JSON; another `ValueError` for
    bytes that are no text and for an integer of too many digits; `RecursionError` for a value that is
    nested too deeply. -/
inductive LoadsError where
  | jsonDecodeError (msg : String)
  | valueError (msg : String)
  | recursionError (msg : String)
deriving DecidableEq, Repr

/-- The JSON library. -/
structure JsonCodec where
  dumps : Json → List UInt8
  /-- `dumps` with `sort_keys=True`. -/
  dumpsSorted : Json → List UInt8
  loads : List UInt8 → Except LoadsError Json
  /-- `str(value)` of a value that is not a string. -/
  format : Json → String

namespace JsonCodec

/-- `f"{value}"` -/
def text (codec : JsonCodec) : Json → String
  | .str text => text
  | value => codec.format value

end JsonCodec

/-- A piece of code over a connection. -/
abbrev Wire (ε α : Type) : Type := Prog (streamEffect UInt8) ε α

/-- A payload with its length before it. -/
def framed (payload : List UInt8) : List UInt8 := packWord payload.length ++ payload

/-- The text of the `struct.error` of a length that does not fit. -/
def packError : String := "'I' format requires 0 <= number <= 4294967295"

/-! ## The client -/

inductive CallError where
  | daemonError (msg : String)
  | structError (msg : String)
  | attributeError (msg : String)
  | valueError (msg : String)
  | recursionError (msg : String)
deriving DecidableEq, Repr

/-- A response that cannot be read. -/
def CallError.ofLoads : LoadsError → CallError
  | .jsonDecodeError msg => .daemonError s!"malformed response: {msg}"
  | .valueError msg => .valueError msg
  | .recursionError msg => .recursionError msg

namespace Client

def recvExact (n : Nat) : Wire CallError (List UInt8) :=
  recvExactly (.daemonError "short read from daemon") n []

def recvFramed : Wire CallError (List UInt8) := do
  let header ← recvExact 4
  let length := unpackWord header
  if 16 * 1024 * 1024 < length then
    .raise (.daemonError s!"response too large: {length} bytes")
  else recvExact length

def request (method : String) (params : Option (List (String × Json))) (ts : Int) : Json :=
  .dict [("method", .str method), ("params", .obj (params.getD [])), ("ts", .int ts)]

/-- `data.get(key)` -/
def field (data : Json) (key : String) : Wire CallError (Option Json) :=
  match data.get key with
  | .ok value => return value
  | .error msg => .raise (.attributeError msg)

/-- `_call` on a connection that stands. -/
def call (codec : JsonCodec) (method : String) (params : Option (List (String × Json))) (ts : Int) :
    Wire CallError Json := do
  let payload := codec.dumpsSorted (request method params ts)
  if payload.length < 2 ^ 32 then
    sendall (framed payload)
    let resp ← recvFramed
    match codec.loads resp with
    | .error err => .raise (.ofLoads err)
    | .ok data =>
      let ok ← field data "ok"
      if (ok.map Json.truthy).getD false then
        let result ← field data "result"
        return result.getD .null
      else
        let error ← field data "error"
        .raise (.daemonError ((error.map codec.text).getD "unknown daemon error"))
  else .raise (.structError packError)

end Client

/-! ## The daemon -/

/-- What a connection can fail of; `raised` is any exception of a handler, with its `str`. -/
inductive ServeError where
  | connectionError (msg : String)
  | structError (msg : String)
  | jsonDecodeError (msg : String)
  | valueError (msg : String)
  | recursionError (msg : String)
  | attributeError (msg : String)
  | typeError (msg : String)
  | raised (msg : String)
deriving DecidableEq, Repr

def ServeError.str : ServeError → String
  | .connectionError msg | .structError msg | .jsonDecodeError msg | .valueError msg
  | .recursionError msg | .attributeError msg | .typeError msg | .raised msg => msg

/-- A request that cannot be read. -/
def ServeError.ofLoads : LoadsError → ServeError
  | .jsonDecodeError msg => .jsonDecodeError msg
  | .valueError msg => .valueError msg
  | .recursionError msg => .recursionError msg

/-- `METHODS`; a handler returns a JSON value or raises, and `str` of what it raises is its error. -/
abbrev Methods : Type := String → Option (Json → Except String Json)

namespace Server

def authorized (allowedUid : Option Int) (uid : Int) : Bool := uid = 0 ∨ allowedUid = some uid

def recvExact (n : Nat) : Wire ServeError (List UInt8) :=
  recvExactly (.connectionError "short read") n []

def sendFramed (payload : List UInt8) : Wire ServeError Unit :=
  if payload.length < 2 ^ 32 then sendall (framed payload) else .raise (.structError packError)

section Serve

variable (codec : JsonCodec) (methods : Methods)

def reply (fields : List (String × Json)) : Wire ServeError Unit :=
  sendFramed (codec.dumps (.dict fields))

/-- `METHODS.get(method)` -/
def findHandler : Json → Wire ServeError (Option (Json → Except String Json))
  | .str name => return methods name
  | .arr _ => .raise (.typeError "unhashable type: 'list'")
  | .obj _ => .raise (.typeError "unhashable type: 'dict'")
  | _ => return none

/-- `data.get(key)` -/
def field (data : Json) (key : String) : Wire ServeError (Option Json) :=
  match data.get key with
  | .ok value => return value
  | .error msg => .raise (.attributeError msg)

/-- The handler and its answer. -/
def answer (handler : Json → Except String Json) (params : Json) : Wire ServeError Unit :=
  let attempt : Wire ServeError Unit :=
    match handler params with
    | .ok result => reply codec [("ok", .bool true), ("result", result)]
    | .error msg => .raise (.raised msg)
  attempt.catching fun err => reply codec [("ok", .bool false), ("error", .str err.str)]

/-- A request that has been received. -/
def dispatch (req : Json) : Wire ServeError Unit := do
  let found ← field req "method"
  let method := found.getD (.str "")
  let handler ← findHandler methods method
  match handler with
  | none =>
    reply codec [("ok", .bool false), ("error", .str s!"unknown method: {codec.text method}")]
  | some handler =>
    let given ← field req "params"
    let params := match given with
      | some params => if params.truthy then params else .obj []
      | none => .obj []
    answer codec handler params

/-- The body of `_serve_one`. -/
def serveRequest (allowedUid : Option Int) (uid : Int) : Wire ServeError Unit := do
  if authorized allowedUid uid then
    let header ← recvExact 4
    let length := unpackWord header
    if 4 * 1024 * 1024 < length then
      reply codec [("ok", .bool false), ("error", .str "payload too large")]
    else
      let payload ← recvExact length
      match codec.loads payload with
      | .error err => .raise (.ofLoads err)
      | .ok req => dispatch codec methods req
  else reply codec [("ok", .bool false), ("error", .str "unauthorized")]

/-- `_serve_one`: three kinds of error are logged, others end the thread. -/
def serveOne (allowedUid : Option Int) (uid : Int) : Wire ServeError Unit :=
  (serveRequest codec methods allowedUid uid).catching fun err =>
    match err with
    | .connectionError _ | .structError _ | .jsonDecodeError _ => return ()
    | other => .raise other

end Serve

end Server

/-! ## A call over one connection -/

/-- The client's end of a connection to a daemon: `sent` is what the daemon has left unread, and what
    is sent to it is served at once. -/
def connectionSem (serve : Wire ServeError Unit) : Sem (streamEffect UInt8) (Endpoint UInt8)
  | s, .recv most, piece, s' => streamSem s (.recv most) piece s'
  | s, .sendall bytes, _, s' => ∃ out served,
      Ends streamSem serve ⟨s.sent ++ bytes, []⟩ out served ∧
        s' = ⟨s.incoming ++ served.sent, served.incoming⟩

theorem handsOutPieces_connectionSem {serve : Wire ServeError Unit} :
    HandsOutPieces (connectionSem serve) := fun _ _ _ _ h => h

/-- What the daemon answers. -/
def replyTo (methods : Methods) (method : String) (params : List (String × Json)) : Json :=
  match methods method with
  | none => .dict [("ok", .bool false), ("error", .str s!"unknown method: {method}")]
  | some handler =>
    match handler (.obj params) with
    | .ok result => .dict [("ok", .bool true), ("result", result)]
    | .error msg => .dict [("ok", .bool false), ("error", .str msg)]

/-- What the call is to come to. -/
def callResult (methods : Methods) (method : String) (params : List (String × Json)) :
    Except CallError Json :=
  match methods method with
  | none => .error (.daemonError s!"unknown method: {method}")
  | some handler =>
    match handler (.obj params) with
    | .ok result => .ok result
    | .error msg => .error (.daemonError msg)

/-! ### The messages -/

section Messages

variable {a b : Json}

theorem keyBefore_ok_error : Json.keyBefore "ok" "error" = false := by decide

theorem keyBefore_ok_result : Json.keyBefore "ok" "result" = true := by decide

theorem keyBefore_method_params : Json.keyBefore "method" "params" = true := by decide

theorem keyBefore_params_ts : Json.keyBefore "params" "ts" = true := by decide

theorem dict_ok_error : Json.dict [("ok", a), ("error", b)] = .obj [("error", b), ("ok", a)] := by
  simp [Json.dict, Json.insertField, keyBefore_ok_error]

theorem dict_ok_result : Json.dict [("ok", a), ("result", b)] = .obj [("ok", a), ("result", b)] := by
  simp [Json.dict, Json.insertField, keyBefore_ok_result]

theorem request_eq {method : String} {params : Option (List (String × Json))} {ts : Int} :
    Client.request method params ts =
      .obj [("method", .str method), ("params", .obj (params.getD [])), ("ts", .int ts)] := by
  simp [Client.request, Json.dict, Json.insertField, keyBefore_method_params, keyBefore_params_ts]

end Messages

/-! ### The daemon's side -/

section Serving

variable {codec : JsonCodec} {methods : Methods} {method : String}
  {params : Option (List (String × Json))} {ts : Int} {s : Endpoint UInt8} {rest : List UInt8}

theorem wp_reply {fields : List (String × Json)}
    (hlength : (codec.dumps (.dict fields)).length < 2 ^ 32) :
    wp streamSem (fun _ _ => True) (Server.reply codec fields) (fun out s' => out = .ok () ∧
      s' = { s with sent := s.sent ++ framed (codec.dumps (.dict fields)) }) s := by
  unfold Server.reply Server.sendFramed
  rw [if_pos hlength]
  refine ⟨trivial, ?_⟩
  rintro _ s' rfl
  exact ⟨rfl, rfl⟩

/-- The handler's value is sent, or the text of its error. -/
theorem wp_answer {handler : Json → Except String Json} {fields : List (String × Json)}
    (hmethod : methods method = some handler)
    (hlength : (codec.dumps (replyTo methods method fields)).length < 2 ^ 32) :
    wp streamSem (fun _ _ => True) (Server.answer codec handler (.obj fields)) (fun out s' =>
      out = .ok () ∧ s' = { s with
        sent := s.sent ++ framed (codec.dumps (replyTo methods method fields)) }) s := by
  unfold replyTo at hlength ⊢
  simp only [hmethod] at hlength ⊢
  apply wp_catching.mpr
  cases hresult : handler (.obj fields) with
  | ok value =>
    simp only [hresult] at hlength ⊢
    apply wp_mono (wp_reply hlength)
    rintro out s' ⟨rfl, rfl⟩
    exact ⟨trivial, rfl⟩
  | error msg =>
    simp only [hresult] at hlength ⊢
    exact wp_reply hlength

theorem field_method : Server.field (Client.request method params ts) "method" =
    .ret (some (.str method)) := by
  simp [request_eq, Server.field, Json.get]

theorem field_params : Server.field (Client.request method params ts) "params" =
    .ret (some (.obj (params.getD []))) := by
  simp [request_eq, Server.field, Json.get, List.lookup]

/-- `params or {}` of an object. -/
theorem orEmpty_obj {fields : List (String × Json)} :
    (if (Json.obj fields).truthy then Json.obj fields else .obj []) = .obj fields := by
  cases fields <;> rfl

theorem wp_dispatch
    (hlength : (codec.dumps (replyTo methods method (params.getD []))).length < 2 ^ 32) :
    wp streamSem (fun _ _ => True) (Server.dispatch codec methods (Client.request method params ts))
      (fun out s' => out = .ok () ∧ s' = { s with
        sent := s.sent ++ framed (codec.dumps (replyTo methods method (params.getD []))) }) s := by
  unfold Server.dispatch
  rw [field_method, field_params]
  simp only [Prog.bind_eq, Prog.bind_ret, Option.getD_some, Server.findHandler, Prog.pure_eq]
  cases hmethod : methods method with
  | none =>
    have hreply : replyTo methods method (params.getD []) =
        .dict [("ok", .bool false), ("error", .str s!"unknown method: {method}")] := by
      simp only [replyTo, hmethod]
    rw [hreply] at hlength ⊢
    exact wp_reply hlength
  | some handler =>
    simp only [orEmpty_obj]
    exact wp_answer hmethod hlength

/-- What becomes of the outcome of a request: three kinds of error are only logged. -/
def Server.logging : Except ServeError Unit → Except ServeError Unit
  | .error (.connectionError _) | .error (.structError _) | .error (.jsonDecodeError _) => .ok ()
  | out => out

/-- What becomes of the payload of a frame. -/
def Server.serveLoaded (codec : JsonCodec) (methods : Methods) :
    Except LoadsError Json → Wire ServeError Unit
  | .error err => .raise (.ofLoads err)
  | .ok req => Server.dispatch codec methods req

/-- `_serve_one` reads the frame of a request, and leaves the rest. -/
theorem wp_serveOne_framed {allowedUid : Option Int} {uid : Int} {payload : List UInt8}
    {Q : Except ServeError Unit → Endpoint UInt8 → Prop}
    (hauth : Server.authorized allowedUid uid = true) (hrequest : payload.length ≤ 4 * 1024 * 1024)
    (hincoming : s.incoming = framed payload ++ rest)
    (h : wp streamSem (fun _ _ => True) (Server.serveLoaded codec methods (codec.loads payload))
      (fun out s' => Q (Server.logging out) s') { s with incoming := rest }) :
    wp streamSem (fun _ _ => True) (Server.serveOne codec methods allowedUid uid) Q s := by
  have hlength : unpackWord (packWord payload.length) = payload.length :=
    unpackWord_packWord (by omega)
  rw [framed, List.append_assoc] at hincoming
  apply wp_catching.mpr
  unfold Server.serveRequest
  rw [if_pos hauth]
  apply wp_bind.mpr
  apply wp_mono (wp_recvExactly handsOutPieces_streamSem (by rfl) hincoming)
  rintro out s₁ ⟨rfl, rfl⟩
  rw [andThen_ok, List.nil_append, hlength]
  dsimp only
  rw [if_neg (Nat.not_lt.mpr hrequest)]
  apply wp_bind.mpr
  apply wp_mono (wp_recvExactly handsOutPieces_streamSem (by simp) rfl)
  rintro out s₂ ⟨rfl, rfl⟩
  rw [andThen_ok, List.nil_append]
  unfold Server.serveLoaded at h
  cases hloads : codec.loads payload with
  | error err =>
    rw [hloads] at h
    cases err <;> exact h
  | ok req =>
    rw [hloads] at h
    apply wp_mono h
    intro out s' hout
    cases out with
    | ok _ => exact hout
    | error err => cases err <;> exact hout

/-- A request that is read is dispatched. -/
theorem wp_serveOne_received {allowedUid : Option Int} {uid : Int} {payload : List UInt8} {req : Json}
    {Q : Except ServeError Unit → Endpoint UInt8 → Prop} (hdecoded : codec.loads payload = .ok req)
    (hauth : Server.authorized allowedUid uid = true) (hrequest : payload.length ≤ 4 * 1024 * 1024)
    (hincoming : s.incoming = framed payload ++ rest)
    (h : wp streamSem (fun _ _ => True) (Server.dispatch codec methods req)
      (fun out s' => Q (Server.logging out) s') { s with incoming := rest }) :
    wp streamSem (fun _ _ => True) (Server.serveOne codec methods allowedUid uid) Q s := by
  apply wp_serveOne_framed hauth hrequest hincoming
  rw [hdecoded]
  exact h

/-- **The daemon reads one frame and sends one frame.** -/
theorem wp_serveOne {allowedUid : Option Int} {uid : Int}
    (hdecoded : codec.loads (codec.dumpsSorted (Client.request method params ts)) =
      .ok (Client.request method params ts))
    (hauth : Server.authorized allowedUid uid = true)
    (hrequest : (codec.dumpsSorted (Client.request method params ts)).length ≤ 4 * 1024 * 1024)
    (hreply : (codec.dumps (replyTo methods method (params.getD []))).length < 2 ^ 32)
    (hincoming : s.incoming = framed (codec.dumpsSorted (Client.request method params ts)) ++ rest) :
    wp streamSem (fun _ _ => True) (Server.serveOne codec methods allowedUid uid) (fun out s' =>
      out = .ok () ∧ s' = ⟨rest, s.sent ++ framed (codec.dumps (replyTo methods method
        (params.getD [])))⟩) s := by
  apply wp_serveOne_received hdecoded hauth hrequest hincoming
  apply wp_mono (wp_dispatch hreply)
  rintro out s₃ ⟨rfl, rfl⟩
  exact ⟨rfl, rfl⟩

end Serving

/-! ### The client's side -/

section Calling

variable {codec : JsonCodec} {methods : Methods} {method : String}
  {params : Option (List (String × Json))} {ts : Int} {s : Endpoint UInt8} {rest : List UInt8}
  {sem : Sem (streamEffect UInt8) (Endpoint UInt8)}

theorem wp_recvFramed (hsem : HandsOutPieces sem) {payload : List UInt8}
    (hlength : payload.length ≤ 16 * 1024 * 1024) (hincoming : s.incoming = framed payload ++ rest) :
    wp sem (fun _ _ => True) Client.recvFramed
      (fun out s' => out = .ok payload ∧ s' = { s with incoming := rest }) s := by
  have hunpack : unpackWord (packWord payload.length) = payload.length :=
    unpackWord_packWord (by omega)
  rw [framed, List.append_assoc] at hincoming
  apply wp_bind.mpr
  apply wp_mono (wp_recvExactly hsem (by rfl) hincoming)
  rintro out s₁ ⟨rfl, rfl⟩
  rw [andThen_ok, List.nil_append, hunpack]
  dsimp only
  rw [if_neg (Nat.not_lt.mpr hlength)]
  apply wp_mono (wp_recvExactly hsem (by simp) rfl)
  rintro out s₂ ⟨rfl, rfl⟩
  exact ⟨rfl, rfl⟩

/-- What the client makes of a reply. -/
def interpret (codec : JsonCodec) (data : Json) : Wire CallError Json := do
  let ok ← Client.field data "ok"
  if (ok.map Json.truthy).getD false then
    let result ← Client.field data "result"
    return result.getD .null
  else
    let error ← Client.field data "error"
    .raise (.daemonError ((error.map codec.text).getD "unknown daemon error"))

theorem interpret_result {value : Json} :
    interpret codec (.dict [("ok", .bool true), ("result", value)]) = .ret value := by
  simp [dict_ok_result, interpret, Client.field, Json.get, List.lookup, Json.truthy]

theorem interpret_error {msg : String} :
    interpret codec (.dict [("ok", .bool false), ("error", .str msg)]) =
      .raise (.daemonError msg) := by
  simp [dict_ok_error, interpret, Client.field, Json.get, List.lookup, Json.truthy, JsonCodec.text]

/-- The client makes of a reply what the daemon meant. -/
theorem interpret_replyTo {fields : List (String × Json)} :
    interpret codec (replyTo methods method fields) =
      Prog.ofExcept (callResult methods method fields) := by
  unfold replyTo callResult
  cases methods method with
  | none => exact interpret_error
  | some handler =>
    cases hresult : handler (.obj fields) with
    | ok value =>
      simp only [hresult]
      exact interpret_result
    | error msg =>
      simp only [hresult]
      exact interpret_error

theorem wp_clientOfExcept {result : Except CallError Json} :
    wp sem (fun _ _ => True) (Prog.ofExcept result) (fun out s' => out = result ∧ s' = s) s := by
  cases result with
  | ok value => exact ⟨rfl, rfl⟩
  | error err => exact ⟨rfl, rfl⟩

end Calling

/-! ### The round trip -/

/-- A call to a daemon over one connection, and what each side makes of more bytes behind its
    frame. -/
structure RoundTrip (codec : JsonCodec) (serve : Wire ServeError Unit) (method : String)
    (params : Option (List (String × Json))) (ts : Int) (replied : Json)
    (result : Except CallError Json) : Prop where
  returns : ∀ out s, Ends (connectionSem serve) (Client.call codec method params ts) ⟨[], []⟩ out s →
    out = result ∧ s = ⟨[], []⟩
  ends : ∃ out s, Ends (connectionSem serve) (Client.call codec method params ts) ⟨[], []⟩ out s
  serverReads : ∀ later out s, Ends streamSem serve
    ⟨framed (codec.dumpsSorted (Client.request method params ts)) ++ later, []⟩ out s →
    s = ⟨later, framed (codec.dumps replied)⟩
  clientReads : ∀ later out s,
    Ends streamSem Client.recvFramed ⟨framed (codec.dumps replied) ++ later, []⟩ out s →
    out = .ok (codec.dumps replied) ∧ s = ⟨later, []⟩

section Ending

variable {codec : JsonCodec} {methods : Methods}

theorem callsOnly_reply {fields : List (String × Json)} :
    CallsOnly (E := streamEffect UInt8) answeredCall (Server.reply codec fields) :=
  CallsOnly.ite (.perform trivial) .raise

theorem callsOnly_answer {handler : Json → Except String Json} {params : Json} :
    CallsOnly (E := streamEffect UInt8) answeredCall (Server.answer codec handler params) := by
  apply CallsOnly.catching
  · cases handler params with
    | ok result => exact callsOnly_reply
    | error msg => exact .raise
  · exact fun _ => callsOnly_reply

theorem callsOnly_field {data : Json} {key : String} :
    CallsOnly (E := streamEffect UInt8) answeredCall (Server.field data key) := by
  unfold Server.field
  split
  · exact .ret
  · exact .raise

theorem callsOnly_dispatch {req : Json} :
    CallsOnly (E := streamEffect UInt8) answeredCall (Server.dispatch codec methods req) := by
  refine CallsOnly.bind callsOnly_field fun found => CallsOnly.bind ?_ fun handler => ?_
  · unfold Server.findHandler
    split
    · exact .ret
    · exact .raise
    · exact .raise
    · exact .ret
  · cases handler with
    | none => exact callsOnly_reply
    | some handler => exact CallsOnly.bind callsOnly_field fun _ => callsOnly_answer

/-- The daemon is never stuck. -/
theorem callsOnly_serveOne {allowedUid : Option Int} {uid : Int} :
    CallsOnly (E := streamEffect UInt8) answeredCall
      (Server.serveOne codec methods allowedUid uid) := by
  apply CallsOnly.catching
  · refine CallsOnly.ite (CallsOnly.bind callsOnly_recvExactly fun header => ?_) callsOnly_reply
    refine CallsOnly.ite callsOnly_reply (CallsOnly.bind callsOnly_recvExactly fun payload => ?_)
    cases codec.loads payload with
    | error msg => exact .raise
    | ok req => exact callsOnly_dispatch
  · intro err
    cases err <;> first | exact .ret | exact .raise

theorem callsOnly_interpret {data : Json} :
    CallsOnly (E := streamEffect UInt8) answeredCall (interpret codec data) := by
  have hfield : ∀ key, CallsOnly (E := streamEffect UInt8) answeredCall (Client.field data key) := by
    intro key
    unfold Client.field
    split
    · exact .ret
    · exact .raise
  refine CallsOnly.bind (hfield _) fun ok => CallsOnly.ite ?_ ?_
  · exact CallsOnly.bind (hfield _) fun _ => .ret
  · exact CallsOnly.bind (hfield _) fun _ => .raise

/-- The client is never stuck. -/
theorem callsOnly_call {method : String} {params : Option (List (String × Json))} {ts : Int} :
    CallsOnly (E := streamEffect UInt8) answeredCall (Client.call codec method params ts) := by
  refine CallsOnly.ite (CallsOnly.bind (.perform trivial) fun _ => CallsOnly.bind ?_ fun resp => ?_)
    .raise
  · refine CallsOnly.bind callsOnly_recvExactly fun header => CallsOnly.ite .raise ?_
    exact callsOnly_recvExactly
  · cases codec.loads resp with
    | error msg => exact .raise
    | ok data => exact callsOnly_interpret

theorem exists_connectionSem {allowedUid : Option Int} {uid : Int} (s : Endpoint UInt8)
    (op : StreamOp UInt8) (hop : answeredCall op) :
    ∃ res s', connectionSem (Server.serveOne codec methods allowedUid uid) s op res s' := by
  cases op with
  | recv most => exact exists_recv s hop
  | sendall bytes =>
    obtain ⟨out, served, hends⟩ := callsOnly_serveOne.exists_ends exists_streamSem
      ⟨s.sent ++ bytes, []⟩
    exact ⟨(), _, out, served, hends, rfl⟩

end Ending

/-- **A call returns what the handler returns, and raises what it raises**, however both streams are
    cut. -/
theorem call_roundTrip (codec : JsonCodec) (methods : Methods) (allowedUid : Option Int) (uid : Int)
    (method : String) (params : Option (List (String × Json))) (ts : Int)
    (hdecodes : codec.loads (codec.dumpsSorted (Client.request method params ts)) =
      .ok (Client.request method params ts))
    (hdecodes' : codec.loads (codec.dumps (replyTo methods method (params.getD []))) =
      .ok (replyTo methods method (params.getD [])))
    (hauth : Server.authorized allowedUid uid = true)
    (hrequest : (codec.dumpsSorted (Client.request method params ts)).length ≤ 4 * 1024 * 1024)
    (hreply : (codec.dumps (replyTo methods method (params.getD []))).length ≤ 16 * 1024 * 1024) :
    RoundTrip codec (Server.serveOne codec methods allowedUid uid) method params ts
      (replyTo methods method (params.getD [])) (callResult methods method (params.getD [])) := by
  have hsmall : (codec.dumps (replyTo methods method (params.getD []))).length < 2 ^ 32 := by omega
  have hserve : ∀ later, wp streamSem (fun _ _ => True)
      (Server.serveOne codec methods allowedUid uid) (fun out s => out = .ok () ∧
        s = ⟨later, framed (codec.dumps (replyTo methods method (params.getD [])))⟩)
      ⟨framed (codec.dumpsSorted (Client.request method params ts)) ++ later, []⟩ :=
    fun later => wp_serveOne (s := ⟨_, []⟩) hdecodes hauth hrequest hsmall rfl
  constructor
  · intro out s hends
    apply hends.of_wp (G := fun _ _ => True)
    unfold Client.call
    dsimp only
    rw [if_pos (show (codec.dumpsSorted (Client.request method params ts)).length < 2 ^ 32 by omega)]
    refine ⟨trivial, ?_⟩
    rintro _ s₁ ⟨out₁, served, hserved, rfl⟩
    -- the daemon has seen the whole request, and has sent one frame
    have hserve₀ := hserve []
    rw [List.append_nil] at hserve₀
    obtain ⟨-, rfl⟩ := hserved.of_wp hserve₀
    show wp _ _ (Client.recvFramed.bind _) _ _
    apply wp_bind.mpr
    apply wp_mono (wp_recvFramed handsOutPieces_connectionSem hreply (List.append_nil _).symm)
    rintro out₂ s₂ ⟨rfl, rfl⟩
    rw [andThen_ok, hdecodes']
    show wp _ _ (interpret codec (replyTo methods method (params.getD []))) _ _
    rw [interpret_replyTo]
    exact wp_clientOfExcept
  · exact callsOnly_call.exists_ends exists_connectionSem _
  · intro later out s hends
    exact (hends.of_wp (hserve later)).2
  · intro later out s hends
    exact hends.of_wp (wp_recvFramed handsOutPieces_streamSem hreply rfl)

/-! ### A ping -/

def pingRequest : String := "\x7b\"method\":\"ping\",\"params\":\x7b\x7d,\"ts\":0\x7d"

def pingReply : String := "\x7b\"ok\":true,\"result\":\x7b\"pong\":true\x7d\x7d"

def ascii (text : String) : List UInt8 := text.toList.map fun c => UInt8.ofNat c.toNat

/-- `handle_ping` -/
def handlePing : Json → Except String Json := fun _ => .ok (.dict [("pong", .bool true)])

def pingMethods : Methods := fun method => if method = "ping" then some handlePing else none

/-- The JSON library, on the two texts of a ping. -/
def pingCodec : JsonCodec where
  dumps := fun _ => ascii pingReply
  dumpsSorted := fun _ => ascii pingRequest
  loads := fun bytes =>
    if bytes = ascii pingRequest then .ok (Client.request "ping" none 0)
    else if bytes = ascii pingReply then .ok (replyTo pingMethods "ping" [])
    else .error (.jsonDecodeError "Expecting value: line 1 column 1 (char 0)")
  format := Json.typeName

theorem call_roundTrip_ping :
    RoundTrip pingCodec (Server.serveOne pingCodec pingMethods (some 33) 33) "ping" none 0
      (replyTo pingMethods "ping" []) (.ok (.dict [("pong", .bool true)])) := by
  have hreply : ascii pingReply ≠ ascii pingRequest := by decide
  refine call_roundTrip pingCodec pingMethods (some 33) 33 "ping" none 0 ?_ ?_ (by decide) ?_ ?_
  · simp [pingCodec]
  · simp [pingCodec, hreply]
  · show (ascii pingRequest).length ≤ _
    decide
  · show (ascii pingReply).length ≤ _
    decide

end EdoPlugin
