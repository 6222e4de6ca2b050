import OsbClient.RotateBinding

/-!
# What a rotation returns

The contract of the response interpreter, for `RotateBinding`: which answers of the transport
become a `BindResponse`, and which become which error. Every statement is over every client,
every world, every request and every transport, and follows from the two descriptions of a run
(`OsbClient.rotateBinding_sent`, `OsbClient.rotateBinding_result`) and the two of the dispatch
(`OsbClient.interpretRotateResponse_ok`, `OsbClient.interpretRotateResponse_error`).

Two things the dispatch does are worth stating on their own. A `200` or `201` answer is decoded
into `BindResponse` itself, so an `async` member of its body reaches the result's `Async`. And
the `202` branch builds its response from the decoded body field by field and never looks at the
alpha flag, so the endpoints of an accepted rotation are kept when alpha features are off, while
the `200` and `201` branch drops them (`OsbClient.rotateBinding_sync_endpoints`).
-/

namespace OsbClient

open Url Json

section Run

variable {c : Client} {w : World} {r : RotateBindingRequest}

/-- A rotation that returns a response has sent a request and had an answer, and the response is
the dispatch of that answer. -/
theorem rotateBinding_answered {b : BindResponse} (h : (rotateBinding c w r).result = .ok b) :
    ∃ req response, (rotateBinding c w r).sent = some req ∧ c.doRequestFunc req = .ok response ∧
      interpretRotateResponse c r response = .ok b := by
  cases hs : (rotateBinding c w r).sent with
  | none =>
    obtain ⟨e, he, -⟩ := rotateBinding_not_sent c w r hs
    rw [he] at h; cases h
  | some req =>
    rw [rotateBinding_result c w r hs] at h
    cases hdo : c.doRequestFunc req with
    | error e => rw [hdo] at h; cases h
    | ok response => rw [hdo] at h; exact ⟨req, response, rfl, hdo, h⟩

/-- **The responses of a rotation**: a `200` or `201` whose body decodes as a `BindResponse`,
with the `Async` that body gives; or a `202` to a caller that accepts it, asynchronous, with the
operation key the body gives. -/
theorem rotateBinding_response {b : BindResponse} (h : (rotateBinding c w r).result = .ok b) :
    ∃ req response, (rotateBinding c w r).sent = some req ∧ c.doRequestFunc req = .ok response ∧
      (((response.statusCode = 200 ∨ response.statusCode = 201) ∧
        ∃ d, unmarshalResponse response {} decodeBindResponse = .ok d ∧ b.async = d.async) ∨
      (response.statusCode = 202 ∧ r.acceptsIncomplete = true ∧ b.async = true ∧
        ∃ d, unmarshalResponse response {} decodeBindSuccess = .ok d ∧
          b.operationKey = d.operation)) := by
  obtain ⟨req, response, hs, hdo, hi⟩ := rotateBinding_answered h
  refine ⟨req, response, hs, hdo, ?_⟩
  rcases interpretRotateResponse_ok hi with ⟨hst, d, hd, rfl⟩ | ⟨hst, ha, d, hd, rfl⟩
  · exact .inl ⟨hst, d, hd, by split <;> rfl⟩
  · exact .inr ⟨hst, ha, rfl, d, hd, rfl⟩

/-- **The synchronous path honours the alpha gate**: with alpha features off, a rotation
answered `200` or `201` returns no endpoints, whatever its body holds. -/
theorem rotateBinding_sync_endpoints {req : Request} {response : Response} {b : BindResponse}
    (hα : c.enableAlphaFeatures = false) (hsent : (rotateBinding c w r).sent = some req)
    (hdo : c.doRequestFunc req = .ok response)
    (hs : response.statusCode = 200 ∨ response.statusCode = 201)
    (h : (rotateBinding c w r).result = .ok b) : b.endpoints = none := by
  rw [rotateBinding_result c w r hsent, hdo] at h
  rcases interpretRotateResponse_ok h with ⟨-, d, -, rfl⟩ | ⟨h202, -⟩
  · rw [hα]; rfl
  · omega

end Run

set_option maxRecDepth 10000 in
/-- A `200` whose body says `"async": true` is reported as asynchronous. -/
theorem rotateBinding_async_on_200 :
    ((rotateBinding (testClient version2_17 false (.ok ⟨200, .json (.object [("async", .bool true)])⟩))
      testWorld defaultRotateBindingRequest).result.toOption.map (·.async)) = some true := by
  decide

set_option maxRecDepth 10000 in
/-- With alpha features off, an accepted rotation keeps the endpoints of its `202` body. -/
theorem rotateBinding_endpoints_on_202 :
    ((rotateBinding (testClient version2_17 false
        (.ok ⟨202, .json (.object [("endpoints", .array [])])⟩)) testWorld
      defaultAsyncRotateBindingRequest).result.toOption.map (·.endpoints.isSome)) = some true := by
  decide

end OsbClient
