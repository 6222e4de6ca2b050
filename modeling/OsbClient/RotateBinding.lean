import OsbClient.Client

/-!
# `RotateBinding`

`rotate_binding.go` in full: the request is validated, the binding URL formatted from the
client's URL and the two identifiers, `accepts_incomplete` set when the caller accepts an
asynchronous answer, and the body `{"predecessor_binding_id": ...}` sent with a `PUT` through
`prepareAndDo`. The answer is dispatched on its status: `200` and `201` are decoded into a
`BindResponse`, `202` into a `bindSuccessResponseBody` when the caller accepts it, and every
other status, or a `202` the caller did not ask for, is a failure.

The dispatch is `OsbClient.interpretRotateResponse`, a function of the response alone, and
`OsbClient.rotateBinding_sent` and `OsbClient.rotateBinding_result` say everything
`RotateBinding` does around it: which request reaches the transport, and that the transport's
answer is dispatched and nothing else. The results of the operation below are stated through
these two lemmas.
-/

namespace OsbClient

open Url Json

/-- `AcceptsIncomplete`. Modelled from the spec: the constant is declared in a file missing from
the sources; its value is the name the API gives the parameter, which is also the JSON name
`client.go` gives every `AcceptsIncomplete` field. -/
def acceptsIncomplete : GoString := "accepts_incomplete"

/-- `fmt.Sprintf(bindingURLFmt, url, instanceID, bindingID)`. -/
def bindingURLFmt (url instanceID bindingID : GoString) : GoString :=
  url ++ "/v2/service_instances/" ++ instanceID ++ "/service_bindings/" ++ bindingID

/-- `http.MethodPut`. -/
def methodPut : GoString := "PUT"

/-- **`validateRotateBindingRequest`**: the first empty identifier, by the name the source
reports. -/
def validateRotateBindingRequest (request : RotateBindingRequest) : Option GoError :=
  if request.instanceID = [] then some (.required "instanceID")
  else if request.bindingID = [] then some (.required "serviceID")
  else if request.predecessorBindingID = [] then some (.required "predecessorBindingID")
  else none

/-- The parameters of a rotation: `accepts_incomplete=true` when the caller accepts an
asynchronous answer, none otherwise. -/
def rotateParams (accepts : Bool) : StringMap :=
  if accepts then ⟨[(acceptsIncomplete, "true")], List.nodup_singleton _⟩
  else ⟨[], List.nodup_nil⟩

/-- `requestBody`: the body of a rotation, the predecessor binding behind a pointer. -/
def requestBody (r : RotateBindingRequest) : RotateBindingRequestBody :=
  ⟨some r.predecessorBindingID⟩

/-- The body of a rotation, as `json.Marshal` writes it. -/
def rotateBody (r : RotateBindingRequest) : JSON := (requestBody r).marshal

/-- The encoder writes the body of every rotation. -/
theorem marshalBody_requestBody (r : RotateBindingRequest) :
    marshalBody (some (requestBody r).goValue) = .ok (some (rotateBody r)) := by
  rw [marshalBody, RotateBindingRequestBody.marshal_goValue]; rfl

/-- The response of an accepted rotation, built field by field from the decoded body. -/
def BindSuccessResponseBody.toBindResponse (b : BindSuccessResponseBody) : BindResponse :=
  { credentials := b.credentials, syslogDrainURL := b.syslogDrainURL,
    routeServiceURL := b.routeServiceURL, volumeMounts := b.volumeMounts, endpoints := b.endpoints,
    metadata := b.metadata, operationKey := b.operation, async := true }

/-- **The status dispatch of `RotateBinding`**. -/
def interpretRotateResponse (c : Client) (r : RotateBindingRequest) (response : Response) :
    Except GoError BindResponse :=
  if response.statusCode = 200 ∨ response.statusCode = 201 then
    match unmarshalResponse response {} decodeBindResponse with
    | .error err => .error (.httpStatusCode response.statusCode none none (some err))
    | .ok userResponse =>
      .ok (if !c.enableAlphaFeatures then { userResponse with endpoints := none } else userResponse)
  else if response.statusCode = 202 then
    if !r.acceptsIncomplete then .error (handleFailureResponse response)
    else
      match unmarshalResponse response {} decodeBindSuccess with
      | .error err => .error (.httpStatusCode response.statusCode none none (some err))
      | .ok responseBodyObj => .ok responseBodyObj.toBindResponse
  else .error (handleFailureResponse response)

/-- **`RotateBinding`**. -/
def rotateBinding (c : Client) (w : World) (r : RotateBindingRequest) : Exchange BindResponse :=
  match validateRotateBindingRequest r with
  | some err => ⟨none, .error err⟩
  | none =>
    let response := prepareAndDo c w methodPut (bindingURLFmt c.url r.instanceID r.bindingID)
      (some (rotateParams r.acceptsIncomplete)) (some (requestBody r).goValue) r.originatingIdentity
    ⟨response.sent, response.result.bind (interpretRotateResponse c r)⟩

/-- `defaultRotateBindingRequest` of the tests, with the identifiers their URL check expects. -/
def defaultRotateBindingRequest : RotateBindingRequest :=
  ⟨"test-instance-id", "test-binding-id", false, "test-predecessor-binding-id", none⟩

/-- `defaultAsyncRotateBindingRequest` of the tests. -/
def defaultAsyncRotateBindingRequest : RotateBindingRequest :=
  { defaultRotateBindingRequest with acceptsIncomplete := true }

/-- A client at `version` of a broker at `https://broker.example`, without authentication,
whose transport answers every request with `reaction`, as the tests' clients do. -/
def testClient (version : APIVersion) (enableAlpha : Bool) (reaction : Except GoError Response) :
    Client :=
  ⟨"https://broker.example", version, none, enableAlpha, fun _ => reaction⟩

/-- A world whose loops visit a map in the order it is stored in. -/
def testWorld : World := ⟨MapRange.stored, "test-request-id"⟩

/-! ### The dispatch, case by case -/

section Dispatch

variable {c : Client} {r : RotateBindingRequest} {response : Response}

/-- **Every response a rotation returns**: a `200` or `201` body decoded as a `BindResponse`, its
endpoints dropped unless alpha features are on, or a `202` the caller accepts, decoded as a
`bindSuccessResponseBody` and made an asynchronous `BindResponse`. -/
theorem interpretRotateResponse_ok {b : BindResponse}
    (h : interpretRotateResponse c r response = .ok b) :
    ((response.statusCode = 200 ∨ response.statusCode = 201) ∧
      ∃ d, unmarshalResponse response {} decodeBindResponse = .ok d ∧
        b = if !c.enableAlphaFeatures then { d with endpoints := none } else d) ∨
    (response.statusCode = 202 ∧ r.acceptsIncomplete = true ∧
      ∃ d, unmarshalResponse response {} decodeBindSuccess = .ok d ∧ b = d.toBindResponse) := by
  unfold interpretRotateResponse at h
  split at h
  · next hs =>
    refine .inl ⟨hs, ?_⟩
    split at h
    · cases h
    · next d hd => exact ⟨d, hd, by cases h; rfl⟩
  · split at h
    · next hs =>
      split at h
      · cases h
      · next ha =>
        split at h
        · cases h
        · next d hd => exact .inr ⟨hs, by simpa using ha, d, hd, by cases h; rfl⟩
    · cases h

end Dispatch

/-! ### What a rotation does -/

section Run

variable (c : Client) (w : World) (r : RotateBindingRequest)

/-- The request a rotation prepares. -/
def rotateRequest : Except GoError Request :=
  prepareRequest c w methodPut (bindingURLFmt c.url r.instanceID r.bindingID)
    (some (rotateParams r.acceptsIncomplete)) (some (requestBody r).goValue) r.originatingIdentity

/-- **Which request reaches the transport**: the prepared one, when the request is valid and
the preparation succeeds; none otherwise. -/
theorem rotateBinding_sent (req : Request) :
    (rotateBinding c w r).sent = some req ↔
      validateRotateBindingRequest r = none ∧ rotateRequest c w r = .ok req := by
  unfold rotateBinding prepareAndDo rotateRequest
  split
  · simp_all
  · split <;> simp_all

set_option maxRecDepth 10000 in
/-- At 2.16, the tests' default rotation is handed to the transport as a `PUT`. -/
theorem rotateBinding_sends_at_2_16 :
    ((rotateBinding (testClient version2_16 false (.error (.new "http error"))) testWorld
      defaultRotateBindingRequest).sent.map (·.method)) = some methodPut := by
  decide

/-- **What a rotation returns once it has sent a request**: the transport's answer, dispatched
on its status. -/
theorem rotateBinding_result {req : Request} (h : (rotateBinding c w r).sent = some req) :
    (rotateBinding c w r).result = (c.doRequestFunc req).bind (interpretRotateResponse c r) := by
  obtain ⟨hv, hr⟩ := (rotateBinding_sent c w r req).1 h
  rw [rotateRequest] at hr
  simp only [rotateBinding, hv, prepareAndDo, hr]

/-- A rotation that sends nothing fails, with the error of the validation or of the
preparation. -/
theorem rotateBinding_not_sent (h : (rotateBinding c w r).sent = none) :
    ∃ e, (rotateBinding c w r).result = .error e ∧
      (validateRotateBindingRequest r = some e ∨
        validateRotateBindingRequest r = none ∧ rotateRequest c w r = .error e) := by
  unfold rotateBinding prepareAndDo rotateRequest at *
  split
  · exact ⟨_, rfl, .inl ‹_›⟩
  · split
    · exact ⟨_, rfl, .inr ⟨‹_›, ‹_›⟩⟩
    · simp_all

end Run

end OsbClient
