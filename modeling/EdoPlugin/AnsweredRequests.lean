import EdoPlugin.RpcWire

/-!
# Requests that get an answer

`_serve_one` answers what it can look up and whatever its handler does.  Between the frame and the
handler stand three calls that not every JSON text allows: `json.loads` gives up on integers with too
many digits and on deep nesting, only an object has `req.get`, and `METHODS.get` hashes the method.
Their exceptions are none of those it catches, and the connection closes without a reply.
-/

namespace EdoPlugin

open Interaction

namespace Json

/-- Only arrays and objects cannot be keys of a dictionary. -/
def hashable : Json → Bool
  | .arr _ | .obj _ => false
  | _ => true

/-- An object whose method, if it has one, is hashable. -/
def serviceable : Json → Bool
  | .obj fields => (fields.lookup "method").all hashable
  | _ => false

end Json

/-- `json.dumps` of an error reply. -/
def errorReply (codec : JsonCodec) (text : String) : List UInt8 :=
  codec.dumps (.dict [("ok", .bool false), ("error", .str text)])

/-- The texts that a request can get for an answer. -/
inductive ErrorText (codec : JsonCodec) (methods : Methods) (req : Json) : String → Prop
  | unknownMethod {found method} : req.get "method" = .ok found → found.getD (.str "") = method →
      ErrorText codec methods req s!"unknown method: {codec.text method}"
  | raised {name handler params msg} : methods name = some handler → handler params = .error msg →
      ErrorText codec methods req msg
  | unframed : ErrorText codec methods req packError

/-- Exactly one reply is sent, with an `ok` field, and no exception escapes. -/
def Answered (codec : JsonCodec) (s : Endpoint UInt8) (out : Except ServeError Unit)
    (s' : Endpoint UInt8) : Prop :=
  out = .ok () ∧ ∃ reply : Json, (∃ ok, reply.get "ok" = .ok (some ok)) ∧
    s'.sent = s.sent ++ framed (codec.dumps reply)

section Answers

variable {codec : JsonCodec} {methods : Methods} {req : Json} {s s' : Endpoint UInt8} {text : String}

theorem wp_errorReply (hfits : (errorReply codec text).length < 2 ^ 32) :
    wp streamSem (fun _ _ => True) (Server.reply codec [("ok", .bool false), ("error", .str text)])
      (Answered codec s) s := by
  apply wp_mono (wp_reply hfits)
  rintro out s' ⟨rfl, rfl⟩
  refine ⟨rfl, _, ⟨.bool false, ?_⟩, rfl⟩
  rw [dict_ok_error]
  simp [Json.get, List.lookup]

theorem wp_okReply {result : Json}
    (hfits : (codec.dumps (.dict [("ok", .bool true), ("result", result)])).length < 2 ^ 32) :
    wp streamSem (fun _ _ => True) (Server.reply codec [("ok", .bool true), ("result", result)])
      (Answered codec s) s := by
  apply wp_mono (wp_reply hfits)
  rintro out s' ⟨rfl, rfl⟩
  refine ⟨rfl, _, ⟨.bool true, ?_⟩, rfl⟩
  rw [dict_ok_result]
  simp [Json.get, List.lookup]

theorem reply_unframed {fields : List (String × Json)}
    (h : ¬ (codec.dumps (.dict fields)).length < 2 ^ 32) :
    Server.reply codec fields = .raise (.structError packError) :=
  if_neg h

/-- Whatever the handler does, it is answered: a result that no frame holds as an error. -/
theorem wp_answer_answered {name : String} {handler : Json → Except String Json} {params : Json}
    (hmethod : methods name = some handler)
    (hfits : ∀ text, ErrorText codec methods req text → (errorReply codec text).length < 2 ^ 32) :
    wp streamSem (fun _ _ => True) (Server.answer codec handler params) (Answered codec s) s := by
  apply wp_catching.mpr
  cases hresult : handler params with
  | error msg => exact wp_errorReply (hfits msg (.raised hmethod hresult))
  | ok result =>
    by_cases hfits' : (codec.dumps (.dict [("ok", .bool true), ("result", result)])).length < 2 ^ 32
    · apply wp_mono (wp_okReply hfits')
      rintro out s' ⟨rfl, hreply⟩
      exact ⟨rfl, hreply⟩
    · dsimp only
      rw [reply_unframed hfits']
      exact wp_errorReply (hfits packError .unframed)

theorem wp_dispatch_answered (hserviceable : req.serviceable = true)
    (hfits : ∀ text, ErrorText codec methods req text → (errorReply codec text).length < 2 ^ 32) :
    wp streamSem (fun _ _ => True) (Server.dispatch codec methods req) (Answered codec s) s := by
  cases req with
  | obj fields =>
    have hmissing : Json.get (.obj fields) "method" = .ok (fields.lookup "method") := rfl
    have hunknown := hfits _ (.unknownMethod hmissing rfl)
    show wp _ _ ((Server.findHandler methods ((fields.lookup "method").getD (.str ""))).bind _) _ _
    cases hmethod : (fields.lookup "method").getD (.str "") with
    | str name =>
      rw [hmethod] at hunknown
      simp only [Server.findHandler, Prog.pure_eq, Prog.bind_ret]
      cases hname : methods name with
      | none => exact wp_errorReply hunknown
      | some handler =>
        show wp _ _ (Server.answer codec handler _) _ _
        exact wp_answer_answered hname hfits
    | null | bool _ | int _ | float _ =>
      rw [hmethod] at hunknown
      exact wp_errorReply hunknown
    | arr _ | obj _ =>
      -- an unhashable method would have been found in the object
      simp only [Json.serviceable] at hserviceable
      cases hlookup : fields.lookup "method" with
      | none =>
        rw [hlookup] at hmethod
        cases hmethod
      | some method =>
        rw [hlookup] at hmethod hserviceable
        cases hmethod
        cases hserviceable
  | _ => cases hserviceable

/-- What the lookup raises is not caught. -/
theorem dispatch_raises (codec : JsonCodec) (methods : Methods) (h : req.serviceable = false) : ∃ err,
    Server.dispatch codec methods req = .raise err ∧
      Server.logging (.error err) = .error err := by
  cases req with
  | obj fields =>
    simp only [Json.serviceable] at h
    cases hlookup : fields.lookup "method" with
    | none =>
      rw [hlookup] at h
      cases h
    | some method =>
      rw [hlookup] at h
      have hfield : Server.field (.obj fields) "method" = .ret (some method) := by
        simp [Server.field, Json.get, hlookup]
      unfold Server.dispatch
      rw [hfield]
      cases method with
      | arr _ => exact ⟨_, rfl, rfl⟩
      | obj _ => exact ⟨_, rfl, rfl⟩
      | _ => cases h
  | _ => exact ⟨_, rfl, rfl⟩

theorem wp_serveOne_raises {allowedUid : Option Int} {uid : Int} {payload rest : List UInt8}
    (h : req.serviceable = false) (hdecoded : codec.loads payload = .ok req)
    (hauth : Server.authorized allowedUid uid = true) (hlength : payload.length ≤ 4 * 1024 * 1024)
    (hincoming : s.incoming = framed payload ++ rest) :
    wp streamSem (fun _ _ => True) (Server.serveOne codec methods allowedUid uid)
      (fun out _ => ∃ err, out = .error err) s := by
  obtain ⟨err, hdispatch, hescapes⟩ := dispatch_raises codec methods h
  apply wp_serveOne_received hdecoded hauth hlength hincoming
  rw [hdispatch]
  exact ⟨err, hescapes⟩

theorem not_answered_of_nothingSent {out : Except ServeError Unit} (hsent : s'.sent = s.sent) :
    ¬ Answered codec s out s' := by
  rintro ⟨-, reply, -, hreply⟩
  rw [hsent] at hreply
  have hlength := congrArg List.length hreply
  rw [List.length_append, framed, List.length_append, length_packWord] at hlength
  omega

/-- A payload that cannot be read gets no reply. -/
theorem wp_serveOne_unread {allowedUid : Option Int} {uid : Int} {payload rest : List UInt8}
    {err : LoadsError} (hloads : codec.loads payload = .error err)
    (hauth : Server.authorized allowedUid uid = true) (hlength : payload.length ≤ 4 * 1024 * 1024)
    (hincoming : s.incoming = framed payload ++ rest) :
    wp streamSem (fun _ _ => True) (Server.serveOne codec methods allowedUid uid)
      (fun out s' => ¬ Answered codec s out s') s := by
  apply wp_serveOne_framed hauth hlength hincoming
  rw [hloads]
  exact not_answered_of_nothingSent rfl

end Answers

/-- **A request that is received is answered** if and only if the JSON library reads it, as an object
    whose method can be looked up. -/
theorem serveOne_answered_iff (codec : JsonCodec) (methods : Methods) (allowedUid : Option Int)
    (uid : Int) (payload rest : List UInt8) (s s' : Endpoint UInt8) (out : Except ServeError Unit)
    (hauth : Server.authorized allowedUid uid = true) (hlength : payload.length ≤ 4 * 1024 * 1024)
    (hfits : ∀ req text, codec.loads payload = .ok req → ErrorText codec methods req text →
      (errorReply codec text).length < 2 ^ 32)
    (hincoming : s.incoming = framed payload ++ rest)
    (hends : Ends streamSem (Server.serveOne codec methods allowedUid uid) s out s') :
    Answered codec s out s' ↔ ∃ req, codec.loads payload = .ok req ∧ req.serviceable = true := by
  cases hloads : codec.loads payload with
  | error err =>
    constructor
    · intro hanswered
      exact absurd hanswered (hends.of_wp (wp_serveOne_unread hloads hauth hlength hincoming))
    · rintro ⟨req, hread, -⟩
      cases hread
  | ok req =>
    constructor
    · intro hanswered
      refine ⟨req, rfl, ?_⟩
      by_contra hraises
      obtain ⟨err, rfl⟩ := hends.of_wp
        (wp_serveOne_raises (Bool.eq_false_iff.mpr hraises) hloads hauth hlength hincoming)
      cases hanswered.1
    · rintro ⟨_, ⟨⟩, hserviceable⟩
      apply hends.of_wp (G := fun _ _ => True)
      apply wp_serveOne_received hloads hauth hlength hincoming
      apply wp_mono (wp_dispatch_answered hserviceable fun text => hfits req text hloads)
      rintro out s' ⟨rfl, hreply⟩
      exact ⟨rfl, hreply⟩

theorem exists_serveOne (codec : JsonCodec) (methods : Methods) (allowedUid : Option Int) (uid : Int)
    (s : Endpoint UInt8) : ∃ out s', Ends streamSem
      (Server.serveOne codec methods allowedUid uid) s out s' :=
  callsOnly_serveOne.exists_ends exists_streamSem s

theorem pingCodec_fits (text : String) : (errorReply pingCodec text).length < 2 ^ 32 := by
  show (ascii pingReply).length < 2 ^ 32
  decide

/-- A ping is answered. -/
theorem serveOne_answered_iff_ping : ∃ out s', Ends streamSem
    (Server.serveOne pingCodec pingMethods (some 33) 33) ⟨framed (ascii pingRequest), []⟩ out s' ∧
    Answered pingCodec ⟨framed (ascii pingRequest), []⟩ out s' := by
  obtain ⟨out, s', hends⟩ := exists_serveOne pingCodec pingMethods (some 33) 33
    ⟨framed (ascii pingRequest), []⟩
  refine ⟨out, s', hends, ?_⟩
  have hdecoded : pingCodec.loads (ascii pingRequest) = .ok (Client.request "ping" none 0) := by
    simp [pingCodec]
  apply (serveOne_answered_iff pingCodec pingMethods (some 33) 33 (ascii pingRequest) [] _ s' out
    (by decide) (by decide) (fun _ text _ _ => pingCodec_fits text) (List.append_nil _).symm
    hends).mpr
  refine ⟨_, hdecoded, ?_⟩
  rw [request_eq]
  rfl

/-- The JSON library, on the text of an empty array. -/
def arrayCodec : JsonCodec :=
  { pingCodec with
    loads := fun bytes =>
      if bytes = ascii "[]" then .ok (.arr [])
      else .error (.jsonDecodeError "Expecting value: line 1 column 1 (char 0)") }

/-- An array, which is JSON, gets no reply. -/
theorem not_serveOne_answered : ¬ ∀ (codec : JsonCodec) (methods : Methods) (allowedUid : Option Int)
    (uid : Int) (payload rest : List UInt8) (s s' : Endpoint UInt8) (out : Except ServeError Unit),
    Server.authorized allowedUid uid = true → payload.length ≤ 4 * 1024 * 1024 →
    (∀ msg, codec.loads payload ≠ .error (.jsonDecodeError msg)) →
    (∀ req text, codec.loads payload = .ok req → ErrorText codec methods req text →
      (errorReply codec text).length < 2 ^ 32) →
    s.incoming = framed payload ++ rest →
    Ends streamSem (Server.serveOne codec methods allowedUid uid) s out s' →
    Answered codec s out s' := by
  intro hall
  obtain ⟨out, s', hends⟩ := exists_serveOne arrayCodec pingMethods (some 33) 33
    ⟨framed (ascii "[]"), []⟩
  have hdecoded : arrayCodec.loads (ascii "[]") = .ok (.arr []) := by
    simp [arrayCodec]
  have hjson : ∀ msg, arrayCodec.loads (ascii "[]") ≠ .error (.jsonDecodeError msg) := by
    intro msg herror
    rw [hdecoded] at herror
    cases herror
  have hanswered := hall arrayCodec pingMethods (some 33) 33 (ascii "[]") [] _ s' out
    (by decide) (by decide) hjson (fun _ text _ _ => pingCodec_fits text) (List.append_nil _).symm
    hends
  have hunserviceable : Json.serviceable (.arr []) = false := rfl
  obtain ⟨err, rfl⟩ := hends.of_wp (wp_serveOne_raises hunserviceable hdecoded (by decide)
    (by decide) (List.append_nil _).symm)
  cases hanswered.1

end EdoPlugin
