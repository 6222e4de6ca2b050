import OsbClient.Json.Valid
import OsbClient.RotateBinding

/-!
# What `prepareAndDo` hands to the transport

Three parts of the request builder, for every operation that goes through `prepareAndDo`.

The protocol headers are set on every request whatever else happens
(`OsbClient.prepareAndDo_headers`): the API version, the run's request identifier, the JSON
content type when there is a body, and the authorization, whose basic form decodes back to
`username:password`.

The originating identity header is set exactly from 2.13 on and when the caller gives an
identity. Its value is the platform, a space and the base64 of the identity's JSON value, and
the base64 alphabet holds no space, so the value splits back into the two at its *last* space,
and its second part decodes to the value (`OsbClient.Base64.decode_encode`). An identity the
header cannot be built from (an empty platform or value, or a value that is not JSON) stops the
call before anything is sent.

The parameters are set one by one into the URL's query and the query is re-encoded. For a URL
without a query, the encoding reads back as the parameters, keys and values as they were, and
it does not depend on the order in which the loop visited them
(`OsbClient.Url.encode_setAll_range`, `OsbClient.Url.parseQuery_setAll`).
-/

namespace OsbClient

open Url Json

/-! ### The protocol headers -/

/-- The five headers `prepareAndDo` sets have distinct keys. -/
theorem canonical_headers_nodup :
    ([apiVersionHeader, contentType, "Authorization", requestIdentityheader,
      originatingIdentityHeader].map canonicalMIMEHeaderKey).Nodup := by
  decide

theorem setAuth_values_of_ne {k : GoString}
    (hk : canonicalMIMEHeaderKey "Authorization" ≠ canonicalMIMEHeaderKey k) (h : Header)
    (a : Option AuthConfig) : (setAuth h a).values k = h.values k := by
  rcases a with _ | ⟨_ | _, _ | _⟩ <;> simp [setAuth, hk]

/-- The authorization `setAuth` writes: basic if configured, else bearer if configured. -/
theorem setAuth_authorization {h : Header} (hh : h.values "Authorization" = [])
    (a : Option AuthConfig) :
    (setAuth h a).values "Authorization" =
      match a.bind (·.basicAuthConfig) with
      | some b => [("Basic " : GoString) ++ basicAuth b.username b.password]
      | none => ((a.bind (·.bearerConfig)).map fun t => ("Bearer " : GoString) ++ t.token).toList := by
  rcases a with _ | ⟨_ | _, _ | _⟩ <;> simp [setAuth, hh]

/-- What the headers set before the originating identity hold, on a new request. -/
theorem baseHeader_values (c : Client) (w : World) (hasBody : Bool) :
    (baseHeader c w hasBody ⟨Values.empty⟩).values apiVersionHeader = [c.apiVersion.headerValue] ∧
    (baseHeader c w hasBody ⟨Values.empty⟩).values requestIdentityheader = [w.requestID] ∧
    (baseHeader c w hasBody ⟨Values.empty⟩).values contentType =
      (if hasBody then [jsonType] else []) ∧
    (baseHeader c w hasBody ⟨Values.empty⟩).values "Authorization" =
      (match c.authConfig.bind (·.basicAuthConfig) with
      | some b => [("Basic " : GoString) ++ basicAuth b.username b.password]
      | none => ((c.authConfig.bind (·.bearerConfig)).map fun t =>
          ("Bearer " : GoString) ++ t.token).toList) ∧
    (baseHeader c w hasBody ⟨Values.empty⟩).values originatingIdentityHeader = [] := by
  have hne := canonical_headers_nodup
  simp only [List.map_cons, List.map_nil, List.nodup_cons, List.mem_cons, List.mem_singleton,
    List.not_mem_nil, or_false, not_or, List.nodup_nil, and_true] at hne
  obtain ⟨⟨hvc, hva, hvr, hvo⟩, ⟨hca, hcr, hco⟩, ⟨har, hao⟩, hro, -⟩ := hne
  cases hasBody <;>
    simp [baseHeader, setAuth_values_of_ne, setAuth_authorization, hvc, hva, hvr,
      hvo, hca, hcr, hco, har, hao, hro, Ne.symm hvc, Ne.symm hva, Ne.symm hvr, Ne.symm hvo,
      Ne.symm hca, Ne.symm hcr, Ne.symm hco, Ne.symm har, Ne.symm hao, Ne.symm hro]

/-- Every header of a request handed to the transport but the originating identity's is as
`baseHeader` set it on the new request. -/
theorem prepareAndDo_values_of_ne {c : Client} {w : World} {method URL : GoString}
    {params : Option StringMap} {body : Option GoValue}
    {originatingIdentity : Option OriginatingIdentity} {req : Request} {k : GoString}
    (hsent : (prepareAndDo c w method URL params body originatingIdentity).sent = some req)
    (hk : canonicalMIMEHeaderKey originatingIdentityHeader ≠ canonicalMIMEHeaderKey k) :
    req.header.values k = (baseHeader c w body.isSome ⟨Values.empty⟩).values k := by
  obtain ⟨_, request, -, hn, -, -, -, hh⟩ := prepareRequest_ok ((prepareAndDo_sent req).1 hsent)
  obtain ⟨u, -, -, hempty, -⟩ := newRequest_ok hn
  rw [← hempty]
  split at hh
  · obtain ⟨v, -, hreq⟩ := hh
    rw [hreq, Header.values_set, if_neg hk]
  · rw [hh]

/-- **The protocol headers of every request**: the API version, the request identifier of the
run, `application/json` exactly when there is a body, and the authorization: basic with the
base64 of `username:password` when a basic configuration is given, else bearer when a token is,
else none. -/
theorem prepareAndDo_headers (c : Client) (w : World) (method URL : GoString)
    (params : Option StringMap) (body : Option GoValue)
    (originatingIdentity : Option OriginatingIdentity) (req : Request)
    (hsent : (prepareAndDo c w method URL params body originatingIdentity).sent = some req) :
    req.header.values apiVersionHeader = [c.apiVersion.headerValue] ∧
    req.header.values requestIdentityheader = [w.requestID] ∧
    req.header.values contentType = (if body.isSome then [jsonType] else []) ∧
    (∀ b, c.authConfig.bind (·.basicAuthConfig) = some b → ∃ enc,
      req.header.values "Authorization" = [("Basic " : GoString) ++ enc] ∧
        Base64.decode enc = some (b.username ++ [0x3A] ++ b.password)) ∧
    (c.authConfig.bind (·.basicAuthConfig) = none →
      req.header.values "Authorization" =
        ((c.authConfig.bind (·.bearerConfig)).map fun t => ("Bearer " : GoString) ++ t.token).toList) := by
  have hbase := fun k => prepareAndDo_values_of_ne (k := k) hsent
  obtain ⟨hv, hr, hc, ha, -⟩ := baseHeader_values c w body.isSome
  rw [hbase _ (by decide), hbase _ (by decide), hbase _ (by decide), hbase _ (by decide)]
  exact ⟨hv, hr, hc, fun b hb => ⟨_, by rw [ha, hb]; rfl, Base64.decode_encode _⟩,
    fun hb => by rw [ha, hb]⟩

/-! ### The originating identity -/

theorem buildOriginatingIdentityHeaderValue_ok {i : OriginatingIdentity} {v : GoString}
    (h : buildOriginatingIdentityHeaderValue (some i) = .ok v) :
    v = i.platform ++ [0x20] ++ Base64.encode i.value := by
  simp only [buildOriginatingIdentityHeaderValue] at h
  split at h
  · cases h
  · split at h
    · cases h
    · split at h
      · cases h
      · cases h; rfl

theorem buildOriginatingIdentityHeaderValue_error {i : OriginatingIdentity}
    (h : i.platform = [] ∨ i.value = [] ∨ (isValidJSON i.value).isSome = true) :
    ∃ e, buildOriginatingIdentityHeaderValue (some i) = .error e := by
  simp only [buildOriginatingIdentityHeaderValue]
  split
  · exact ⟨_, rfl⟩
  · split
    · exact ⟨_, rfl⟩
    · next hp hv =>
      obtain ⟨err, herr⟩ := Option.isSome_iff_exists.1 ((h.resolve_left hp).resolve_left hv)
      exact ⟨_, by rw [herr]⟩

/-- **The identity's checks, as a whole**: the header value is built exactly when the platform
is not empty and the value is a JSON text. The check of an empty value is subsumed by the JSON
check, which rejects the empty string too; only its message differs. -/
theorem buildOriginatingIdentityHeaderValue_ok_iff (i : OriginatingIdentity) (v : GoString) :
    buildOriginatingIdentityHeaderValue (some i) = .ok v ↔
      i.platform ≠ [] ∧ Text i.value ∧ v = i.platform ++ [0x20] ++ Base64.encode i.value := by
  rw [← show checkValid i.value = none ↔ Text i.value from ⟨text_of_checkValid, checkValid_of_text⟩]
  by_cases hp : i.platform = []
  · simp [buildOriginatingIdentityHeaderValue, hp]
  by_cases hv : i.value = []
  · have hnil : checkValid [] ≠ none := fun h => (text_of_checkValid h).ne_nil rfl
    simp [buildOriginatingIdentityHeaderValue, hp, hv, hnil]
  simp only [buildOriginatingIdentityHeaderValue, isValidJSON, if_neg hp, if_neg hv, ne_eq, hp,
    not_false_eq_true, true_and]
  cases checkValid i.value <;> simp [eq_comm]

section Identity

variable (c : Client) (w : World) (method URL : GoString) (params : Option StringMap)
  (body : Option GoValue) (originatingIdentity : Option OriginatingIdentity)

/-- **The originating identity header**: a request handed to the transport carries it exactly
from 2.13 on and when there is an identity; its value is the platform, a space, and a text
without a space whose base64 decoding is the identity's value; and from 2.13 on an identity with
an empty platform, an empty value or a value that is not JSON stops the call with an error
before anything is sent. -/
theorem prepareAndDo_originatingIdentity :
    (∀ req, (prepareAndDo c w method URL params body originatingIdentity).sent = some req →
      (req.header.values originatingIdentityHeader ≠ [] ↔
        c.apiVersion.atLeast version2_13 = true ∧ originatingIdentity.isSome = true) ∧
      ∀ x ∈ req.header.values originatingIdentityHeader, ∃ i enc, originatingIdentity = some i ∧
        x = i.platform ++ [0x20] ++ enc ∧ 0x20 ∉ enc ∧ Base64.decode enc = some i.value) ∧
    (c.apiVersion.atLeast version2_13 = true → ∀ i, originatingIdentity = some i →
      i.platform = [] ∨ i.value = [] ∨ (isValidJSON i.value).isSome = true →
      (prepareAndDo c w method URL params body originatingIdentity).sent = none ∧
        ∃ e, (prepareAndDo c w method URL params body originatingIdentity).result = .error e) := by
  refine ⟨fun req hreq => ?_, fun hv i hi hbad => ?_⟩
  · obtain ⟨_, request, -, hn, -, -, -, hh⟩ := prepareRequest_ok ((prepareAndDo_sent req).1 hreq)
    obtain ⟨u, -, -, hempty, -⟩ := newRequest_ok hn
    have h0 : (baseHeader c w body.isSome request.header).values originatingIdentityHeader = [] := by
      rw [hempty]; exact (baseHeader_values c w _).2.2.2.2
    split at hh
    · next hcond =>
      obtain ⟨v, hv, hreqh⟩ := hh
      obtain ⟨i, rfl⟩ := Option.isSome_iff_exists.1 hcond.2
      simp only [hreqh, Header.values_set, if_true, ne_eq, List.cons_ne_nil, not_false_eq_true,
        true_iff, List.mem_singleton, forall_eq]
      refine ⟨by simpa using hcond, i, _, rfl, buildOriginatingIdentityHeaderValue_ok hv, ?_,
        Base64.decode_encode _⟩
      exact fun h => (Base64.encode_no_break h).2.2 rfl
    · next hcond =>
      rw [hh, h0]
      simpa using hcond
  · obtain ⟨e, he⟩ := buildOriginatingIdentityHeaderValue_error hbad
    obtain ⟨e', he'⟩ := prepareRequest_identity_error hv hi he
    rw [prepareAndDo_of_error he']
    exact ⟨rfl, e', rfl⟩

set_option maxRecDepth 10000 in
/-- With a platform holding a space, the identity header splits at its first space inside the
platform. -/
theorem originatingIdentity_first_space :
    ((prepareAndDo (testClient version2_17 false (.error (.new "http error"))) testWorld methodPut
        "https://broker.example" none none (some ⟨"my platform", "{}"⟩)).sent.map fun req =>
      (cut 0x20 ((req.header.values originatingIdentityHeader).headD [])).1) = some "my" := by
  decide

/-- **From 2.13 on, an identity is checked before anything is sent**: a request with an
identity reaches the transport exactly when `json.Marshal` writes the body, `http.NewRequest`
accepts the method and the URL, the platform is not empty and the value is a JSON text. -/
theorem prepareAndDo_identity_checked (hv : c.apiVersion.atLeast version2_13 = true)
    (i : OriginatingIdentity) :
    (prepareAndDo c w method URL params body (some i)).sent.isSome = true ↔
      (∃ bodyJSON request, marshalBody body = .ok bodyJSON ∧
        newRequest method URL bodyJSON = .ok request) ∧ i.platform ≠ [] ∧ Text i.value := by
  unfold prepareAndDo prepareRequest
  cases marshalBody body with
  | error e => simp [Except.bind]
  | ok bodyJSON =>
    simp only [Except.bind, Except.ok.injEq, exists_eq_left']
    cases hn : newRequest method URL bodyJSON with
    | error e => simp [hn]
    | ok request =>
      simp only [hv, Option.isSome_some, and_self, if_true]
      cases hb : buildOriginatingIdentityHeaderValue (some i) with
      | error e =>
        have hbad : ¬(i.platform ≠ [] ∧ Text i.value) := fun ⟨hp, ht⟩ =>
          nomatch hb.symm.trans ((buildOriginatingIdentityHeaderValue_ok_iff i _).2 ⟨hp, ht, rfl⟩)
        simpa [Except.map, hn] using hbad
      | ok v =>
        obtain ⟨hp, ht, -⟩ := (buildOriginatingIdentityHeaderValue_ok_iff i v).1 hb
        simp [Except.map, hp, ht, hn]

end Identity

theorem prepareAndDo_identity_checked_testClient :
    version2_17.atLeast version2_13 = true ∧
    ((prepareAndDo (testClient version2_17 false (.error (.new "http error"))) testWorld methodPut
        "https://broker.example" none none (some ⟨"cloudfoundry", "{}"⟩)).sent.isSome = true ↔
      (∃ bodyJSON request, marshalBody none = .ok bodyJSON ∧
        newRequest methodPut "https://broker.example" bodyJSON = .ok request) ∧
        ("cloudfoundry" : GoString) ≠ [] ∧ Text ("{}" : GoString)) :=
  ⟨by decide, prepareAndDo_identity_checked _ _ _ _ _ _ (by decide) _⟩

/-! ### The query -/

/-- **The query of the parameters**: for a URL without a query, the query `prepareAndDo` writes
is the encoding of the parameters whatever order the loop visits them in, and it parses back
without error to the parameters' keys, each with its one value. -/
theorem prepareAndDo_query (c : Client) (w : World) (method URL : GoString) (p : StringMap)
    (body : Option GoValue) (originatingIdentity : Option OriginatingIdentity) (req : Request)
    (hsent : (prepareAndDo c w method URL (some p) body originatingIdentity).sent = some req)
    (hq : (parse URL).map (·.rawQuery) = .ok []) :
    req.url.rawQuery = (setAll Values.empty p.entries).encode ∧
    (parseQuery req.url.rawQuery).2 = none ∧
    (parseQuery req.url.rawQuery).1.keys.Perm (p.entries.map Prod.fst) ∧
    ∀ k x, (k, x) ∈ p.entries → (parseQuery req.url.rawQuery).1.lookup k = [x] := by
  obtain ⟨_, request, -, hn, -, -, hurl, -⟩ := prepareRequest_ok ((prepareAndDo_sent req).1 hsent)
  obtain ⟨u, hu, hru, -, -⟩ := newRequest_ok hn
  have hempty : request.url.query = Values.empty := by
    rw [hu] at hq
    injection hq with hq
    rw [URL.query, hru]
    simp only [hq, parseQuery_nil]
  have hraw : req.url.rawQuery = (setAll Values.empty (w.range p).order).encode := by
    rw [hurl, mergeQuery, ← hempty]
  rw [hraw, encode_setAll_range]
  exact ⟨rfl, encode_setAll_range (w.range p) ▸ parseQuery_setAll (w.range p)⟩

/-- Parameters whose keys and values hold `&`, `=`, `+`, `%` and a space. -/
def exampleParams : StringMap := ⟨[("a&b", "c=d"), ("x+y", "50% off")], by decide⟩

set_option maxRecDepth 10000 in
theorem prepareAndDo_query_exampleParams :
    ∃ req, (prepareAndDo (testClient version2_17 false (.error (.new "http error"))) testWorld
        methodPut "https://broker.example/v2" (some exampleParams) none none).sent = some req ∧
      (parse "https://broker.example/v2").map (·.rawQuery) = .ok [] ∧
      req.url.rawQuery = (setAll Values.empty exampleParams.entries).encode ∧
      (parseQuery req.url.rawQuery).2 = none ∧
      (parseQuery req.url.rawQuery).1.keys.Perm (exampleParams.entries.map Prod.fst) ∧
      ∀ k x, (k, x) ∈ exampleParams.entries → (parseQuery req.url.rawQuery).1.lookup k = [x] :=
  have hs : (prepareAndDo (testClient version2_17 false (.error (.new "http error"))) testWorld
      methodPut "https://broker.example/v2" (some exampleParams) none none).sent.isSome := by decide
  ⟨_, (Option.some_get hs).symm, rfl,
    prepareAndDo_query _ _ _ _ _ _ _ _ (Option.some_get hs).symm rfl⟩

end OsbClient
