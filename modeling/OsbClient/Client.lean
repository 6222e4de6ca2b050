import OsbClient.Base64
import OsbClient.Json.Scanner
import OsbClient.Types
import OsbClient.Url.Parse
import OsbClient.Version

/-!
# The client and its shared request path

`client.go` sends every request of every operation through one function, `prepareAndDo`: it
writes the body with `json.Marshal`, returning the encoder's error if it refuses the body,
builds an `*http.Request` with `http.NewRequest`, sets the protocol headers, the authorization,
a fresh request identifier and, from 2.13 on, the originating identity, merges the parameters
into the query, and hands the request to the client's `doRequestFunc`. The responses come back
through `unmarshalResponse` and `handleFailureResponse`.

The client is a record of its configuration and its transport, `doRequestFunc`, an arbitrary
function from requests to responses or errors: every statement below holds for every transport.
What a call hands to the transport is made observable by `OsbClient.Exchange`, which records
the request sent, if any, beside the result. Two things a run depends on are not inputs of the
source: the order in which `range` visits a map and the identifier `uuid.New` draws. Both are
the `OsbClient.World` a call runs in, and statements hold for every world.
-/

namespace OsbClient

open Url Json

/-! ### Headers -/

/-- A byte of an HTTP token: `validHeaderFieldByte` and `isTokenTable`. -/
def isTokenByte (c : UInt8) : Bool :=
  isAlpha c || isDigit c ||
    c.toNat ∈ [0x21, 0x23, 0x24, 0x25, 0x26, 0x27, 0x2A, 0x2B, 0x2D, 0x2E, 0x5E, 0x5F, 0x60, 0x7C, 0x7E]

/-- The case change of `canonicalMIMEHeaderKey`: upper case at the start and after each `-`,
lower case elsewhere. -/
def canonicalCase : Bool → GoString → GoString
  | _, [] => []
  | upper, c :: rest =>
    let c' := if upper ∧ 0x61 ≤ c.toNat ∧ c.toNat ≤ 0x7A then c - 32
      else if !upper ∧ 0x41 ≤ c.toNat ∧ c.toNat ≤ 0x5A then c + 32 else c
    c' :: canonicalCase (c'.toNat = 0x2D) rest

/-- **`CanonicalMIMEHeaderKey`**: a key of token bytes in canonical case, any other key as it is. -/
def canonicalMIMEHeaderKey (s : GoString) : GoString :=
  if s.all isTokenByte then canonicalCase true s else s

/-- `http.Header`: canonical keys to values. -/
structure Header where
  fields : Values

/-- `Header.Set`: the key's values become the one value. -/
def Header.set (h : Header) (key value : GoString) : Header :=
  ⟨h.fields.set (canonicalMIMEHeaderKey key) value⟩

/-- `Header.Values`: all the values of a key. -/
def Header.values (h : Header) (key : GoString) : List GoString :=
  h.fields.lookup (canonicalMIMEHeaderKey key)

@[simp] theorem Header.values_set (h : Header) (k key x : GoString) :
    (h.set k x).values key =
      if canonicalMIMEHeaderKey k = canonicalMIMEHeaderKey key then [x] else h.values key :=
  Values.lookup_set ..

@[simp] theorem Header.values_empty (key : GoString) : (⟨Values.empty⟩ : Header).values key = [] :=
  rfl

/-- `APIVersionHeader`. -/
def apiVersionHeader : GoString := "X-Broker-API-Version"

/-- `OriginatingIdentityHeader`. -/
def originatingIdentityHeader : GoString := "X-Broker-API-Originating-Identity"

/-- `RequestIdentityheader`. -/
def requestIdentityheader : GoString := "X-Broker-API-Request-Identity"

/-- `contentType`. -/
def contentType : GoString := "Content-Type"

/-- `jsonType`. -/
def jsonType : GoString := "application/json"

/-! ### Requests, responses and the client -/

/-- `*http.Request`: what the transport is handed. The body is the value of the JSON text
`json.Marshal` wrote, if there is a body. -/
structure Request where
  method : GoString
  url : URL
  header : Header
  body : Option JSON

/-- `*http.Response`: the status code and the body as the client reads it. -/
structure Response where
  statusCode : Int
  body : Body

/-- `BasicAuthConfig`. -/
structure BasicAuthConfig where
  username : GoString
  password : GoString

/-- `BearerConfig`. -/
structure BearerConfig where
  token : GoString

/-- `AuthConfig`: at most one of the two is used, basic first. -/
structure AuthConfig where
  basicAuthConfig : Option BasicAuthConfig
  bearerConfig : Option BearerConfig

/-- `client`: the configuration a call reads, and the transport. -/
structure Client where
  url : GoString
  apiVersion : APIVersion
  authConfig : Option AuthConfig
  enableAlphaFeatures : Bool
  doRequestFunc : Request → Except GoError Response

/-- What a run depends on that is not an input of the source: the order each `range` loop
visits a map in, and the identifier `uuid.New` draws. -/
structure World where
  range : (m : StringMap) → MapRange m
  requestID : GoString

/-- A call of the client as the transport sees it: the request handed to `doRequestFunc`, if
one was, and what the call returns. -/
structure Exchange (α : Type) where
  sent : Option Request
  result : Except GoError α

/-! ### `http.NewRequest` -/

/-- `validMethod`: a non-empty token. -/
def validMethod (method : GoString) : Bool := method ≠ [] && method.all isTokenByte

/-- `hasPort`: a `:` after the last `]`. -/
def hasPort (host : GoString) : Bool :=
  match cutLast 0x3A host, cutLast 0x5D host with
  | some (before, _), some (before', _) => before'.length < before.length
  | some _, none => true
  | none, _ => false

/-- `removeEmptyPort`: a host ending in a `:` with no port loses the `:`. -/
def removeEmptyPort (host : GoString) : GoString :=
  if hasPort host ∧ host.getLast? = some 0x3A then host.dropLast else host

/-- **`http.NewRequest`**: the method checked, the URL parsed, and no header yet. -/
def newRequest (method URL : GoString) (body : Option JSON) : Except GoError Request :=
  let method : GoString := if method = [] then "GET" else method
  if !validMethod method then .error (.quoted "net/http: invalid method " method "")
  else (parse URL).map fun u =>
    { method := method, url := { u with host := removeEmptyPort u.host }, header := ⟨Values.empty⟩,
      body := body }

/-! ### `prepareAndDo` -/

/-- `basicAuth`: the base64 of `username:password`. -/
def basicAuth (username password : GoString) : GoString :=
  Base64.encode (username ++ [0x3A] ++ password)

/-- **`buildOriginatingIdentityHeaderValue`**: the platform, a space, and the base64 of the
value, once the platform is non-empty and the value is a non-empty JSON text. -/
def buildOriginatingIdentityHeaderValue : Option OriginatingIdentity → Except GoError GoString
  | none => .ok []
  | some i =>
    if i.platform = [] then .error (.new "originating identity platform must not be empty")
    else if i.value = [] then .error (.new "originating identity value must not be empty")
    else match isValidJSON i.value with
      | some err => .error (.wrap "originating identity value must be valid JSON" err)
      | none => .ok (i.platform ++ [0x20] ++ Base64.encode i.value)

/-- The authorization header: basic if configured, else bearer if configured. -/
def setAuth (h : Header) : Option AuthConfig → Header
  | some ⟨some b, _⟩ => h.set "Authorization" ("Basic " ++ basicAuth b.username b.password)
  | some ⟨none, some t⟩ => h.set "Authorization" ("Bearer " ++ t.token)
  | _ => h

/-- The headers `prepareAndDo` sets before the originating identity: the version, the content
type when there is a body, the authorization and the request identifier. -/
def baseHeader (c : Client) (w : World) (hasBody : Bool) (h : Header) : Header :=
  let h := h.set apiVersionHeader c.apiVersion.headerValue
  let h := if hasBody then h.set contentType jsonType else h
  (setAuth h c.authConfig).set requestIdentityheader w.requestID

/-- The query `prepareAndDo` writes: the URL's own query with each parameter set, in the order
the loop visits them. -/
def mergeQuery (w : World) (u : URL) : Option StringMap → URL
  | none => u
  | some p => { u with rawQuery := (setAll u.query (w.range p).order).encode }

/-- The body of the request: none for a `nil` body, else the text `json.Marshal` writes for it,
or the error the encoder returns. -/
def marshalBody : Option GoValue → Except GoError (Option JSON)
  | none => .ok none
  | some v => (marshal v).map some

/-- **The request `prepareAndDo` hands to the transport**, or the error it returns first. -/
def prepareRequest (c : Client) (w : World) (method URL : GoString) (params : Option StringMap)
    (body : Option GoValue) (originatingIdentity : Option OriginatingIdentity) :
    Except GoError Request :=
  (marshalBody body).bind fun bodyJSON =>
  (newRequest method URL bodyJSON).bind fun request =>
    let h := baseHeader c w body.isSome request.header
    let identity : Except GoError Header :=
      if c.apiVersion.atLeast version2_13 ∧ originatingIdentity.isSome then
        (buildOriginatingIdentityHeaderValue originatingIdentity).map
          (h.set originatingIdentityHeader)
      else .ok h
    identity.map fun h => { request with header := h, url := mergeQuery w request.url params }

/-- **`prepareAndDo`**: the request prepared and handed to `doRequestFunc`, or the error of the
preparation with nothing sent. -/
def prepareAndDo (c : Client) (w : World) (method URL : GoString) (params : Option StringMap)
    (body : Option GoValue) (originatingIdentity : Option OriginatingIdentity) : Exchange Response :=
  match prepareRequest c w method URL params body originatingIdentity with
  | .error e => ⟨none, .error e⟩
  | .ok request => ⟨some request, c.doRequestFunc request⟩

/-! ### What a preparation makes -/

section Prepare

variable {c : Client} {w : World} {method URL : GoString} {params : Option StringMap}
  {body : Option GoValue} {originatingIdentity : Option OriginatingIdentity}

theorem newRequest_ok {bodyJSON : Option JSON} {request : Request}
    (h : newRequest method URL bodyJSON = .ok request) :
    ∃ u, parse URL = .ok u ∧ request.url = { u with host := removeEmptyPort u.host } ∧
      request.header = ⟨Values.empty⟩ ∧ request.body = bodyJSON := by
  unfold newRequest at h
  generalize (if method = [] then ("GET" : GoString) else method) = m at h
  cases hu : parse URL with
  | error => rw [hu] at h; dsimp only at h; split at h <;> cases h
  | ok u => rw [hu] at h; dsimp only at h; split at h <;> cases h; exact ⟨u, rfl, rfl, rfl, rfl⟩

theorem newRequest_method {bodyJSON : Option JSON} {request : Request}
    (h : newRequest method URL bodyJSON = .ok request) (hm : method ≠ []) :
    request.method = method := by
  unfold newRequest at h
  simp only [if_neg hm] at h
  split at h
  · cases h
  · cases hu : parse URL with
    | error => rw [hu] at h; cases h
    | ok u => rw [hu] at h; cases h; rfl

/-- **The request `prepareAndDo` prepares**: the new request with its headers set, the
originating identity's among them from 2.13 on when there is one, and the parameters merged into
its query. -/
theorem prepareRequest_ok {req : Request}
    (h : prepareRequest c w method URL params body originatingIdentity = .ok req) :
    ∃ bodyJSON request, marshalBody body = .ok bodyJSON ∧
      newRequest method URL bodyJSON = .ok request ∧ req.method = request.method ∧
      req.body = request.body ∧ req.url = mergeQuery w request.url params ∧
      if c.apiVersion.atLeast version2_13 ∧ originatingIdentity.isSome then
        ∃ v, buildOriginatingIdentityHeaderValue originatingIdentity = .ok v ∧
          req.header = (baseHeader c w body.isSome request.header).set originatingIdentityHeader v
      else req.header = baseHeader c w body.isSome request.header := by
  unfold prepareRequest at h
  cases hm : marshalBody body with
  | error => rw [hm] at h; cases h
  | ok bodyJSON =>
    rw [hm] at h
    change (newRequest method URL bodyJSON).bind _ = _ at h
    cases hn : newRequest method URL bodyJSON with
    | error => rw [hn] at h; cases h
    | ok request =>
      rw [hn] at h
      refine ⟨bodyJSON, request, rfl, hn, ?_⟩
      simp only [Except.bind] at h
      split at h
      · next hc =>
        cases hv : buildOriginatingIdentityHeaderValue originatingIdentity with
        | error => rw [hv] at h; cases h
        | ok v => rw [hv] at h; cases h; exact ⟨rfl, rfl, rfl, by rw [if_pos hc]; exact ⟨v, rfl, rfl⟩⟩
      · next hc => cases h; exact ⟨rfl, rfl, rfl, by rw [if_neg hc]⟩

/-- From 2.13 on, an originating identity the header cannot be built from stops the request
before it is sent. -/
theorem prepareRequest_identity_error {i : OriginatingIdentity} {e : GoError}
    (hv : c.apiVersion.atLeast version2_13 = true) (hi : originatingIdentity = some i)
    (he : buildOriginatingIdentityHeaderValue (some i) = .error e) :
    ∃ e', prepareRequest c w method URL params body originatingIdentity = .error e' := by
  unfold prepareRequest
  cases marshalBody body with
  | error e' => exact ⟨e', rfl⟩
  | ok bodyJSON =>
    change ∃ e', (newRequest method URL bodyJSON).bind _ = .error e'
    cases newRequest method URL bodyJSON with
    | error e' => exact ⟨e', rfl⟩
    | ok request =>
      subst hi
      refine ⟨e, ?_⟩
      simp only [Except.bind, hv, Option.isSome_some, and_self, if_true, he]
      rfl

theorem prepareAndDo_sent (req : Request) :
    (prepareAndDo c w method URL params body originatingIdentity).sent = some req ↔
      prepareRequest c w method URL params body originatingIdentity = .ok req := by
  unfold prepareAndDo
  split <;> simp_all

/-- A body the encoder refuses stops the call with the encoder's error, before anything else is
looked at. -/
theorem prepareRequest_marshal_error {e : GoError} (h : marshalBody body = .error e) :
    prepareRequest c w method URL params body originatingIdentity = .error e := by
  rw [prepareRequest, h]; rfl

theorem prepareAndDo_of_error {e : GoError}
    (h : prepareRequest c w method URL params body originatingIdentity = .error e) :
    prepareAndDo c w method URL params body originatingIdentity = ⟨none, .error e⟩ := by
  rw [prepareAndDo, h]

/-- **A body `json.Marshal` refuses is never sent**: the call returns the encoder's error, which
names what it could not write, and hands nothing to the transport. -/
theorem prepareAndDo_marshal_error {e : GoError} (h : marshalBody body = .error e) :
    prepareAndDo c w method URL params body originatingIdentity = ⟨none, .error e⟩ ∧
      UnsupportedError e := by
  refine ⟨prepareAndDo_of_error (prepareRequest_marshal_error h), ?_⟩
  rcases body with _ | v
  · cases h
  · cases hv : marshal v <;> simp only [marshalBody, hv, Except.map, reduceCtorEq] at h
    cases h; exact marshal_error hv

end Prepare

/-! ### Responses -/

/-- **`unmarshalResponse`**: the body read and decoded into `obj`. -/
def unmarshalResponse {α : Type} (response : Response) (obj : α) (d : Decoder α) :
    Except GoError α :=
  match response.body with
  | .unreadable err => .error err
  | .malformed err => .error err
  | .json v => d v obj

/-- **`handleFailureResponse`**: an `HTTPStatusCodeError` with the status, and the `error` and
`description` strings of the body, or the failure to decode it. -/
def handleFailureResponse (response : Response) : GoError :=
  match unmarshalResponse response (some []) decodeMap with
  | .error err => .httpStatusCode response.statusCode none none (some err)
  | .ok m => .httpStatusCode response.statusCode (stringAt "error" (m.getD []))
      (stringAt "description" (m.getD [])) none

/-- **`validateClientVersionIsAtLeast`**. -/
def validateClientVersionIsAtLeast (c : Client) (version : APIVersion) : Option GoError :=
  if !c.apiVersion.atLeast version then
    some (.operationNotAllowed
      ("must have API version >= " ++ version.label ++ ". Current: " ++ c.apiVersion.label))
  else none

end OsbClient
