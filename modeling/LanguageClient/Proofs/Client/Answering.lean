import LanguageClient.Client.Incoming
import LanguageClient.Proofs.Feature.Static
import LanguageClient.Proofs.Protocol.Messages

/-!
# Every request of the server is answered

While a client can still write, each request of the server puts one response at the end of what
waits to be written, and nothing else that arrives does. A response carries the id of its request
and either a result or an error, also on the wire. Registrations that come together are tried one
after the other: one that is refused is skipped, and what the others do to the registry is kept.
The request as a whole succeeds only if none was refused.
-/

namespace LanguageClient

/-- The request that a message is. -/
def Message.request? : Message → Option Request
  | .request question => some question
  | .response _ | .notification _ => none

/-- The registry after a registration was tried. -/
def Registry.addOrSkip (files : FileTree) (registry : Registry) (registration : Registration) :
    Registry :=
  match registry.add files registration with
  | .ok after => after
  | .error _ => registry

/-- The response has the id of the request, and it has a result or an error but not both. -/
structure Response.Answers (response : Response) (request : Request) : Prop where
  id : response.id = some request.id
  outcome : response.result.isSome = !response.error.isSome
  /-- The same holds for what is written. -/
  written : ((encode response).get? "result").isSome = !((encode response).get? "error").isSome

/-- The response succeeds just if the registry takes what the request asks for, and then, or else
as far as it can, the registry has taken it. -/
structure Response.Settles (files : FileTree) (request : Request) (registry after : Registry)
    (response : Response) : Prop where
  registered : request.method = "client/registerCapability" →
    match (decode? (request.params.getD .null) : Option RegistrationParams) with
    | none => after = registry ∧ response.error.isSome = true
    | some params =>
      after = params.registrations.foldl (Registry.addOrSkip files) registry ∧
        (response.error = none ↔
          ∃ accepted, params.registrations.foldlM (Registry.add files) registry = .ok accepted)
  unregistered : request.method = "client/unregisterCapability" →
    match (decode? (request.params.getD .null) : Option UnregistrationParams) with
    | none => after = registry ∧ response.error.isSome = true
    | some params =>
      after = params.unregistrations.foldl (fun registry unregistration =>
        (registry.remove unregistration).1) registry ∧ response.error = none
  other : request.method ≠ "client/registerCapability" →
    request.method ≠ "client/unregisterCapability" → after = registry

namespace Client

/-- The client after it has taken messages, one after the other. -/
def receiveAll (files : FileTree) (client : Client) (messages : List Message) : Client :=
  messages.foldl (fun client message => (client.receive files message).1) client

section Registrations

/-- Registrations are tried one after the other, and those that are refused leave no trace. -/
theorem addRegistrations_fst (files : FileTree) (registry : Registry)
    (registrations : List Registration) :
    (addRegistrations files registry registrations).1 =
      registrations.foldl (Registry.addOrSkip files) registry := by
  induction registrations generalizing registry with
  | nil => rfl
  | cons registration rest ih =>
    rw [addRegistrations, List.foldl_cons, Registry.addOrSkip]
    cases registry.add files registration with
    | ok after => exact ih after
    | error error => exact ih registry

/-- No refusal is collected just if every registration is accepted in its turn. -/
theorem addRegistrations_snd_eq_nil (files : FileTree) (registry : Registry)
    (registrations : List Registration) :
    (addRegistrations files registry registrations).2 = [] ↔
      ∃ accepted, registrations.foldlM (Registry.add files) registry = .ok accepted := by
  induction registrations generalizing registry with
  | nil => exact ⟨fun _ => ⟨registry, rfl⟩, fun _ => rfl⟩
  | cons registration rest ih =>
    rw [addRegistrations, List.foldlM_cons]
    cases registry.add files registration with
    | ok after => exact ih after
    | error error => simp [bind, Except.bind]

end Registrations

section Responses

/-- The response that carries an outcome. -/
def respond (id : RequestId) : Except ResponseError Json → Response
  | .ok result => .success id result
  | .error error => .failure id error

/-- What a response has, it has also when it is written. -/
theorem get?_encode_response (response : Response) :
    (encode response).get? "result" = response.result ∧
      (encode response).get? "error" = response.error.map encode := by
  have hresult : response.result = response.result.map encode := by
    cases response.result <;> rfl
  constructor
  · apply get?_record
    · simp [Response.fields, WrittenField.field, WrittenField.optionalField]
    · simp [Response.fields, WrittenField.field, WrittenField.optionalField, ← hresult]
  · apply get?_record <;> simp [Response.fields, WrittenField.field, WrittenField.optionalField]

/-- A response is a success just if its outcome is a result. -/
theorem error_respond (id : RequestId) (outcome : Except ResponseError Json) :
    (respond id outcome).error = none ↔ ∃ result, outcome = .ok result := by
  cases outcome with
  | ok result => simp [respond, Response.success]
  | error error => simp [respond, Response.failure]

theorem respond_answers (request : Request) (outcome : Except ResponseError Json) :
    (respond request.id outcome).Answers request := by
  obtain ⟨hresult, herror⟩ := get?_encode_response (respond request.id outcome)
  have houtcome : (respond request.id outcome).result.isSome =
      !(respond request.id outcome).error.isSome := by
    cases outcome <;> rfl
  refine ⟨?_, houtcome, ?_⟩
  · cases outcome <;> rfl
  · rw [hresult, herror, Option.isSome_map, houtcome]

end Responses

section Requests

/-- Registrations that can be read are tried, and the request succeeds if none is refused. -/
theorem registerFeatures_eq (files : FileTree) (client : Client) {params : Json}
    {readable : RegistrationParams}
    (hread : (decode? params : Option RegistrationParams) = some readable) :
    ∃ outcome, client.registerFeatures files params = (outcome, { client with
        registry := readable.registrations.foldl (Registry.addOrSkip files) client.registry }) ∧
      ((∃ result, outcome = .ok result) ↔ ∃ accepted,
        readable.registrations.foldlM (Registry.add files) client.registry = .ok accepted) := by
  rw [← addRegistrations_fst, ← addRegistrations_snd_eq_nil]
  simp only [registerFeatures, hread]
  obtain ⟨registry, refusals⟩ := addRegistrations files client.registry readable.registrations
  cases refusals with
  | nil => exact ⟨.ok .null, rfl, by simp⟩
  | cons first rest => exact ⟨.error _, rfl, by simp⟩

/-- Answering a request changes nothing of the client but its registry. -/
theorem answer_keeps (files : FileTree) (client : Client) (method : String) (params : Json) :
    ∃ registry, (client.answer files method params).2 = { client with registry } := by
  unfold answer
  split_ifs
  · cases hread : (decode? params : Option RegistrationParams) with
    | none => exact ⟨client.registry, by rw [registerFeatures, hread]⟩
    | some readable =>
      obtain ⟨outcome, heq, -⟩ := registerFeatures_eq files client hread
      exact ⟨_, congrArg Prod.snd heq⟩
  · unfold unregisterFeatures
    cases (decode? params : Option UnregistrationParams) with
    | none => exact ⟨client.registry, rfl⟩
    | some readable => exact ⟨_, rfl⟩
  all_goals exact ⟨client.registry, rfl⟩

/-- What a request does to the registry and whether it succeeds fit each other. -/
theorem answer_settles (files : FileTree) (client : Client) (request : Request) :
    (respond request.id
      (client.answer files request.method (request.params.getD .null)).1).Settles files request
        client.registry
        (client.answer files request.method (request.params.getD .null)).2.registry := by
  constructor
  · intro hmethod
    rw [answer, if_pos (beq_iff_eq.mpr hmethod)]
    cases hread : (decode? (request.params.getD .null) : Option RegistrationParams) with
    | none =>
      rw [registerFeatures, hread]
      exact ⟨rfl, rfl⟩
    | some readable =>
      obtain ⟨outcome, heq, hsuccess⟩ := registerFeatures_eq files client hread
      rw [heq]
      exact ⟨rfl, (error_respond request.id outcome).trans hsuccess⟩
  · intro hmethod
    have hother : ¬ (request.method == "client/registerCapability") = true := by
      rw [hmethod]
      decide
    rw [answer, if_neg hother, if_pos (beq_iff_eq.mpr hmethod), unregisterFeatures]
    cases (decode? (request.params.getD .null) : Option UnregistrationParams) with
    | none => exact ⟨rfl, rfl⟩
    | some readable => exact ⟨rfl, rfl⟩
  · intro hregister hunregister
    rw [answer, if_neg (mt beq_iff_eq.mp hregister), if_neg (mt beq_iff_eq.mp hunregister)]
    split_ifs <;> rfl

end Requests

section Messages

variable (files : FileTree) {client : Client}

/-- A response that was not waited for is ignored, and one that was is kept for its caller. -/
theorem takeResponse_keeps (client : Client) (response : Response) :
    (client.takeResponse response).outbox = client.outbox ∧
      (client.takeResponse response).registry = client.registry ∧
      (client.takeResponse response).isSending = client.isSending := by
  unfold takeResponse
  split
  · split_ifs <;> exact ⟨rfl, rfl, rfl⟩
  · exact ⟨rfl, rfl, rfl⟩

/-- A request is answered with what it comes to, and that is all that is seen of it. -/
theorem takeRequest_eq (hsending : client.isSending = true) (request : Request) :
    client.takeRequest files request =
      let (outcome, after) := client.answer files request.method (request.params.getD .null)
      { client with
        registry := after.registry
        outbox := client.outbox ++ [.response (respond request.id outcome)] } := by
  obtain ⟨registry, hkeeps⟩ := answer_keeps files client request.method (request.params.getD .null)
  simp only [takeRequest, hkeeps, trySend, send, hsending, if_true]
  rfl

/-- A request is answered at once, and no other message is. -/
theorem receive_step (hsending : client.isSending = true) (message : Message) :
    (client.receive files message).1.isSending = true ∧
      match message.request? with
      | some request => ∃ response,
        (client.receive files message).1.outbox = client.outbox ++ [.response response] ∧
          response.Answers request ∧
          response.Settles files request client.registry (client.receive files message).1.registry
      | none => (client.receive files message).1.outbox = client.outbox ∧
        (client.receive files message).1.registry = client.registry := by
  cases message with
  | request request =>
    have hafter : (client.receive files (.request request)).1 = _ :=
      takeRequest_eq files hsending request
    rw [hafter]
    exact ⟨hsending, _, rfl, respond_answers request _, answer_settles files client request⟩
  | response response =>
    obtain ⟨houtbox, hregistry, hsame⟩ := client.takeResponse_keeps response
    exact ⟨hsame.trans hsending, houtbox, hregistry⟩
  | notification notification => exact ⟨hsending, rfl, rfl⟩

/-- However many messages arrive, the responses stand in the order of the requests, one for each.
The response of a request fits what taking that request has done to the registry; no other message
does anything to it. -/
theorem receiveAll_answers (hsending : client.isSending = true) (messages : List Message) :
    ∃ responses : List Response,
      (client.receiveAll files messages).outbox = client.outbox ++ responses.map .response ∧
      List.Forall₂ Response.Answers responses (messages.filterMap Message.request?) ∧
      ∀ before message later, messages = before ++ message :: later →
        match message.request? with
        | some request => ∃ response,
          responses[(before.filterMap Message.request?).length]? = some response ∧
            response.Settles files request (client.receiveAll files before).registry
              (client.receiveAll files (before ++ [message])).registry
        | none => (client.receiveAll files (before ++ [message])).registry =
          (client.receiveAll files before).registry := by
  induction messages generalizing client with
  | nil =>
    refine ⟨[], (List.append_nil _).symm, .nil, ?_⟩
    intro before message later heq
    cases before <;> cases heq
  | cons first rest ih =>
    obtain ⟨hstill, hstep⟩ := receive_step files hsending first
    obtain ⟨responses, houtbox, hanswers, hsettles⟩ := ih hstill
    change (client.receiveAll files (first :: rest)).outbox = _ at houtbox
    cases hrequest : first.request? with
    | some request =>
      rw [hrequest] at hstep
      obtain ⟨response, hfirst, hanswer, hsettle⟩ := hstep
      refine ⟨response :: responses, ?_, ?_, ?_⟩
      · rw [houtbox, hfirst, List.map_cons, List.append_assoc, List.singleton_append]
      · rw [List.filterMap_cons_some hrequest]
        exact .cons hanswer hanswers
      · intro before message later heq
        cases before with
        | nil =>
          obtain ⟨rfl, rfl⟩ := List.cons.inj heq
          rw [hrequest]
          exact ⟨response, rfl, hsettle⟩
        | cons other before =>
          obtain ⟨rfl, rfl⟩ := List.cons.inj heq
          rw [List.filterMap_cons_some hrequest]
          exact hsettles before message later rfl
    | none =>
      rw [hrequest] at hstep
      refine ⟨responses, ?_, ?_, ?_⟩
      · rw [houtbox, hstep.1]
      · rwa [List.filterMap_cons_none hrequest]
      · intro before message later heq
        cases before with
        | nil =>
          obtain ⟨rfl, rfl⟩ := List.cons.inj heq
          rw [hrequest]
          exact hstep.2
        | cons other before =>
          obtain ⟨rfl, rfl⟩ := List.cons.inj heq
          rw [List.filterMap_cons_none hrequest]
          exact hsettles before message later rfl

/-- A request for two registrations, the second of which is refused. -/
def halfRefused : Request :=
  ⟨protocolVersion, .text "1", "client/registerCapability", some (encode (⟨[
    ⟨"1", "textDocument/hover", none⟩, ⟨"2", "unknown", none⟩]⟩ : RegistrationParams))⟩

/-- A request that takes nothing back, because it cannot be read. -/
def unreadable : Request :=
  ⟨protocolVersion, .number 1, "client/unregisterCapability", some (.arr [.null])⟩

theorem receiveAll_answers_halfRefused :
    Sample.client.isSending = true ∧ ∃ first second : Response,
      (Sample.client.receiveAll Sample.files [.request halfRefused,
        .response (.success (.number 7) .null), .request unreadable]).outbox =
          Sample.client.outbox ++ [.response first, .response second] ∧
      first.Answers halfRefused ∧ second.Answers unreadable := by
  have hsending : Sample.client.isSending = true := by rfl
  obtain ⟨responses, houtbox, hanswers, -⟩ := receiveAll_answers Sample.files hsending
    [.request halfRefused, .response (.success (.number 7) .null), .request unreadable]
  refine ⟨hsending, ?_⟩
  obtain _ | ⟨hfirst, _ | ⟨hsecond, _ | _⟩⟩ := hanswers
  exact ⟨_, _, houtbox, hfirst, hsecond⟩

end Messages

end Client

end LanguageClient
