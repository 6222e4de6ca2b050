import OsbClient.RotateBinding
import OsbClient.Url.Path

/-!
# What a broker reads from a rotation

`RotateBinding` formats its URL with `Sprintf`, pasting the client's URL and the two identifiers
into one text, and `http.NewRequest` parses that text again. A broker reads the request the
other way round: it splits the path of the request target at `/` and unescapes each segment,
parses the query after the `?`, and decodes the JSON body. This file states what that reading
recovers, `OsbClient.rotateBinding_received`: the method, the segments of the client URL's path
as written, followed by `v2`, `service_instances`, the instance, `service_bindings` and the
binding, the `accepts_incomplete` parameter exactly when the caller accepts an asynchronous
answer, and the body with the predecessor binding as its only member.

It holds for a client URL with a scheme and an authority, with no query, no fragment and no
escaped `/`, and for identifiers that hold none of the four bytes `url.Parse` gives a meaning to
inside a path: `/`, `?`, `#` and `%` (`OsbClient.isVerbatim`). The format does not escape the
identifiers, so an identifier with a `/` reaches the broker as two segments. An escaped `/` in
the client's URL is kept as written only while `EscapedPath` accepts the whole path as written,
and an identifier with a byte that must be escaped in a path, a space for one, makes it write the
path anew from its decoded form, where the escaped `/` has become a separator: the client URL's
segments then depend on the identifiers (`OsbClient.rotateBinding_segments_of_identifiers`).

The proof follows the text through the parser. The client's URL parses to the same authority
whatever path is appended to it (`OsbClient.Url.parseNoFragment_append`) and the appended text reads as
itself, since it holds no `%`, which gives the request a rotation sends
(`OsbClient.rotateBinding_request`). The target the request carries, the path as written or its
default escaping, then reads back as the segments of the decoded path
(`OsbClient.Url.requestURI_append`), and so does the client URL's path as written
(`OsbClient.mapM_splitOn_clientPath`).
-/

namespace OsbClient

open Url Json

/-- An identifier the binding URL carries as it is: it holds no `/`, `?`, `#` or `%`. -/
def isVerbatim (s : GoString) : Bool :=
  s.all fun b => b != 0x2F && b != 0x3F && b != 0x23 && b != 0x25

/-- The path segments a broker routes a request on: the path of the request target, before its
first `?`, split at `/`, each segment unescaped. -/
def targetSegments (req : Request) : Except GoError (List GoString) :=
  ((cut 0x3F req.url.requestURI).1.splitOn 0x2F).mapM pathUnescape

/-- The query a broker reads: the request target after its first `?`, parsed as a form. -/
def targetQuery (req : Request) : Values × Option GoError :=
  parseQuery (cut 0x3F req.url.requestURI).2

/-- The path `bindingURLFmt` appends to the client's URL, after its first `/`. -/
def bindingPath (instanceID bindingID : GoString) : GoString :=
  ("v2" : GoString) ++ 0x2F :: (("service_instances" : GoString) ++ 0x2F ::
    (instanceID ++ 0x2F :: (("service_bindings" : GoString) ++ 0x2F :: bindingID)))

/-! ### The binding URL -/

theorem not_mem_of_isVerbatim {s : GoString} (h : isVerbatim s = true) :
    0x2F ∉ s ∧ 0x3F ∉ s ∧ 0x23 ∉ s ∧ 0x25 ∉ s := by
  simp only [isVerbatim, List.all_eq_true, Bool.and_eq_true, bne_iff_ne, ne_eq] at h
  exact ⟨fun hb => (h _ hb).1.1.1 rfl, fun hb => (h _ hb).1.1.2 rfl, fun hb => (h _ hb).1.2 rfl,
    fun hb => (h _ hb).2 rfl⟩

theorem bindingURLFmt_eq (url instanceID bindingID : GoString) :
    bindingURLFmt url instanceID bindingID = url ++ 0x2F :: bindingPath instanceID bindingID := by
  have h₁ : ("/v2/service_instances/" : GoString) =
      0x2F :: (("v2" : GoString) ++ 0x2F :: (("service_instances" : GoString) ++ [0x2F])) := by
    decide
  have h₂ : ("/service_bindings/" : GoString) =
      0x2F :: (("service_bindings" : GoString) ++ [0x2F]) := by
    decide
  simp only [bindingURLFmt, bindingPath, h₁, h₂, List.append_assoc, List.cons_append,
    List.singleton_append, List.nil_append]

/-- The binding path of verbatim identifiers holds no `?`, `#` or `%`. -/
theorem bindingPath_plain {instanceID bindingID : GoString} (hI : isVerbatim instanceID = true)
    (hB : isVerbatim bindingID = true) :
    0x3F ∉ 0x2F :: bindingPath instanceID bindingID ∧
      0x23 ∉ 0x2F :: bindingPath instanceID bindingID ∧
      ∀ b ∈ bindingPath instanceID bindingID, b.toNat ≠ 0x25 := by
  have hplain : ∀ x : UInt8, x = 0x3F ∨ x = 0x23 ∨ x = 0x25 →
      x ∉ 0x2F :: bindingPath instanceID bindingID := by
    intro x hx
    have hlit : ∀ s ∈ [[0x2F], ("v2" : GoString), "service_instances", "service_bindings"],
        x ∉ s := by
      rcases hx with rfl | rfl | rfl <;> decide
    have hid : ∀ s, isVerbatim s = true → x ∉ s := fun s hs => by
      have := not_mem_of_isVerbatim hs
      rcases hx with rfl | rfl | rfl
      exacts [this.2.1, this.2.2.1, this.2.2.2]
    simp only [List.mem_cons, List.not_mem_nil, or_false, forall_eq_or_imp, forall_eq,
      List.mem_singleton] at hlit
    simp only [bindingPath, List.mem_cons, List.mem_append, not_or]
    exact ⟨hlit.1, hlit.2.1, hlit.1, hlit.2.2.1, hlit.1, hid _ hI, hlit.1, hlit.2.2.2, hlit.1,
      hid _ hB⟩
  exact ⟨hplain _ (.inl rfl), hplain _ (.inr (.inl rfl)),
    fun b hb h => hplain b (.inr (.inr (byte_eq_of_toNat h))) (.tail _ hb)⟩

theorem splitOn_bindingPath {instanceID bindingID : GoString} (hI : 0x2F ∉ instanceID)
    (hB : 0x2F ∉ bindingID) :
    (bindingPath instanceID bindingID).splitOn 0x2F =
      [("v2" : GoString), "service_instances", instanceID, "service_bindings", bindingID] := by
  simp only [bindingPath, splitOn_append_cons, splitOn_of_not_mem hI, splitOn_of_not_mem hB,
    splitOn_of_not_mem (by decide : (0x2F : UInt8) ∉ ("v2" : GoString)),
    splitOn_of_not_mem (by decide : (0x2F : UInt8) ∉ ("service_instances" : GoString)),
    splitOn_of_not_mem (by decide : (0x2F : UInt8) ∉ ("service_bindings" : GoString)),
    List.singleton_append]

/-! ### The query -/

set_option maxRecDepth 10000 in
/-- The query of a rotation: `accepts_incomplete=true` when the caller accepts an asynchronous
answer and nothing otherwise, whatever order the loop visits the parameters in. -/
theorem rotateQuery_encode (w : World) (accepts : Bool) :
    (setAll Values.empty (w.range (rotateParams accepts)).order).encode =
      if accepts then ("accepts_incomplete=true" : GoString) else [] := by
  cases accepts with
  | false =>
    have hperm : List.Perm _ [] := (w.range (rotateParams false)).perm
    rw [List.perm_nil.1 hperm]
    rfl
  | true =>
    have hperm : List.Perm _ [(acceptsIncomplete, ("true" : GoString))] :=
      (w.range (rotateParams true)).perm
    rw [List.perm_singleton.1 hperm]
    decide

/-! ### The request a broker receives -/

section Received

variable {c : Client} {w : World} {r : RotateBindingRequest} {req : Request} {u : URL}
  {scheme rest : GoString}

/-- **The request a rotation sends**, for a client URL with an authority and no query or
fragment, and verbatim identifiers: a `PUT` with the rotation's body, whose URL has the path of
the client's URL with the binding path appended, decoded and as written, and the query of the
parameters. -/
theorem rotateBinding_request (hu : parse c.url = .ok u)
    (hs : getScheme c.url = .ok (scheme, 0x2F :: 0x2F :: rest)) (hne : scheme ≠ [])
    (hq : 0x3F ∉ c.url) (hf : 0x23 ∉ c.url)
    (hI : isVerbatim r.instanceID = true) (hB : isVerbatim r.bindingID = true)
    (hsent : (rotateBinding c w r).sent = some req) :
    req.method = methodPut ∧ req.body = some (rotateBody r) ∧ req.url.opaqueText = [] ∧
    req.url.path = u.path ++ 0x2F :: bindingPath r.instanceID r.bindingID ∧
    req.url.rawQuery =
      (setAll Values.empty (w.range (rotateParams r.acceptsIncomplete)).order).encode ∧
    ∃ p, p <:+ c.url ∧ unescape .path p = .ok u.path ∧
      u.rawPath = (if escape .path u.path = p then [] else p) ∧
      req.url.rawPath = if escape .path req.url.path = p ++ 0x2F :: bindingPath r.instanceID r.bindingID
        then [] else p ++ 0x2F :: bindingPath r.instanceID r.bindingID := by
  obtain ⟨-, hreq⟩ := (rotateBinding_sent c w r req).1 hsent
  obtain ⟨bodyJSON, request, hm, hn, hmethod, hbody, hurl, -⟩ := prepareRequest_ok hreq
  rw [marshalBody_requestBody] at hm
  cases hm
  obtain ⟨v, hv, hru, -, hrb⟩ := newRequest_ok hn
  obtain ⟨htq, htf, htp⟩ := bindingPath_plain hI hB
  rw [bindingURLFmt_eq] at hv
  -- The full URL parses as the client's with the binding path appended to its path.
  have hfull := parseNoFragment_of_parse (by simp only [List.mem_append]; exact not_or.2 ⟨hf, htf⟩) hv
  obtain ⟨p, hp, hpu, ho, hrq, happ⟩ := parseNoFragment_append hs hne
    (by simp only [List.mem_append]; exact not_or.2 ⟨hq, htq⟩)
    (stringContainsCTLByte_of_parseNoFragment hfull) rfl (parseNoFragment_of_parse hf hu)
  obtain ⟨path₀, hpath₀, hu₀⟩ := setPath_ok hpu
  have hupath : u.path = path₀ := congrArg URL.path hu₀
  have hraw₀ := congrArg URL.rawPath hu₀
  rw [← hupath] at hpath₀ hraw₀
  rw [happ] at hfull
  obtain ⟨path, hpath, rfl⟩ := setPath_ok hfull
  rw [unescape_append hpath₀, unescape_of_no_pct (by decide)
    (List.forall_mem_cons.2 ⟨by decide, htp⟩)] at hpath
  cases hpath
  rw [hurl, hru]
  exact ⟨hmethod.trans (newRequest_method hn (by decide)), hbody.trans hrb, ho, rfl,
    by simp only [mergeQuery, URL.query, hrq, parseQuery_nil], p, hp, hpath₀, hraw₀, rfl⟩

/-- The segments of the client URL's own path as written: with no escaped `/` in the URL, they
are those of its decoded path. -/
theorem mapM_splitOn_clientPath {p : GoString} (hp : p <:+ c.url) (hpu : unescape .path p = .ok u.path)
    (hraw : u.rawPath = (if escape .path u.path = p then [] else p))
    (h2F : ¬[0x25, 0x32, 0x46] <:+: c.url) (h2f : ¬[0x25, 0x32, 0x66] <:+: c.url) :
    (u.escapedPath.splitOn 0x2F).mapM pathUnescape = .ok (u.path.splitOn 0x2F) := by
  rw [unescape_path_eq_pathSegment] at hpu
  refine mapM_splitOn_escapedPath ?_
  rw [hraw]; split
  · exact .inl rfl
  · exact .inr (mapM_splitOn_unescape hpu (fun h => h2F (h.trans hp.isInfix))
      (fun h => h2f (h.trans hp.isInfix)))

/-- **A broker recovers a rotation**: the request a rotation sends is a `PUT` whose path reads
back as the client URL's path as written, split at `/` and unescaped, followed by the binding's
segments, whose query holds
`accepts_incomplete=true` exactly when the caller accepts an asynchronous answer, and whose
body is the predecessor binding alone, for a client URL with an authority and no query, fragment
or escaped `/`, and identifiers without `/`, `?`, `#` or `%`. -/
theorem rotateBinding_received (hu : parse c.url = .ok u)
    (hs : getScheme c.url = .ok (scheme, 0x2F :: 0x2F :: rest)) (hne : scheme ≠ [])
    (hq : 0x3F ∉ c.url) (hf : 0x23 ∉ c.url)
    (h2F : ¬[0x25, 0x32, 0x46] <:+: c.url) (h2f : ¬[0x25, 0x32, 0x66] <:+: c.url)
    (hI : isVerbatim r.instanceID = true) (hB : isVerbatim r.bindingID = true)
    (hsent : (rotateBinding c w r).sent = some req) :
    req.method = methodPut ∧
    targetSegments req = ((u.escapedPath.splitOn 0x2F).mapM pathUnescape).map (· ++
      [("v2" : GoString), "service_instances", r.instanceID, "service_bindings", r.bindingID]) ∧
    (targetQuery req).2 = none ∧
    (targetQuery req).1.entries =
      (if r.acceptsIncomplete then [(acceptsIncomplete, [("true" : GoString)])] else []) ∧
    req.body = some (.object [("predecessor_binding_id",
      .string (coerceUTF8 r.predecessorBindingID))]) := by
  obtain ⟨hm, hb, ho, hpath, hrq, p, hp, hpu, hraw₀, hraw⟩ :=
    rotateBinding_request hu hs hne hq hf hI hB hsent
  have hprefix := mapM_splitOn_clientPath hp hpu hraw₀ h2F h2f
  obtain ⟨htq, -, htp⟩ := bindingPath_plain hI hB
  obtain ⟨hcut, hseg⟩ := requestURI_append hpu (fun h => h2F (h.trans hp.isInfix))
    (fun h => h2f (h.trans hp.isInfix))
    (by simp only [List.mem_append]; exact not_or.2 ⟨fun h => hq (hp.subset h), htq⟩) htp ho
    hpath hraw
  have hquery : targetQuery req = parseQuery (if r.acceptsIncomplete then
      ("accepts_incomplete=true" : GoString) else []) := by
    rw [targetQuery, hcut, hrq, rotateQuery_encode]
  refine ⟨hm, ?_, ?_, ?_, by rw [hb]; rfl⟩
  · rw [targetSegments, hcut, hseg, hprefix, splitOn_bindingPath (not_mem_of_isVerbatim hI).1
      (not_mem_of_isVerbatim hB).1]
    rfl
  · rw [hquery]; cases r.acceptsIncomplete <;> rfl
  · rw [hquery]; cases r.acceptsIncomplete
    · rfl
    · decide

end Received

set_option maxRecDepth 10000 in
/-- The tests' asynchronous rotation, sent by a client of `https://broker.example`. -/
theorem rotateBinding_received_at_broker_example :
    ∃ req, (rotateBinding (testClient version2_17 false (.error (.new "http error"))) testWorld
        defaultAsyncRotateBindingRequest).sent = some req ∧
      req.method = methodPut ∧
      targetSegments req = (((({ scheme := "https", host := "broker.example" } : URL).escapedPath
        |>.splitOn 0x2F).mapM pathUnescape).map (· ++
        [("v2" : GoString), "service_instances", defaultAsyncRotateBindingRequest.instanceID,
          "service_bindings", defaultAsyncRotateBindingRequest.bindingID])) ∧
      (targetQuery req).2 = none ∧
      (targetQuery req).1.entries = (if defaultAsyncRotateBindingRequest.acceptsIncomplete then
        [(acceptsIncomplete, [("true" : GoString)])] else []) ∧
      req.body = some (.object [("predecessor_binding_id",
        .string (coerceUTF8 defaultAsyncRotateBindingRequest.predecessorBindingID))]) :=
  have hs : (rotateBinding (testClient version2_17 false (.error (.new "http error"))) testWorld
      defaultAsyncRotateBindingRequest).sent.isSome := by decide
  ⟨_, (Option.some_get hs).symm,
    rotateBinding_received (c := testClient version2_17 false (.error (.new "http error")))
      (u := { scheme := "https", host := "broker.example" }) rfl
      (rfl : getScheme "https://broker.example" =
        .ok ("https", 0x2F :: 0x2F :: ("broker.example" : GoString))) (by decide) (by decide)
      (by decide) (fun h => absurd (h.subset (List.mem_cons_self _ _)) (by decide))
      (fun h => absurd (h.subset (List.mem_cons_self _ _)) (by decide)) (by decide) (by decide)
      (Option.some_get hs).symm⟩

/-- A client of a broker whose URL's path holds an escaped `/`. -/
def escapedSlashClient : Client :=
  { testClient version2_17 false (.error (.new "http error")) with
    url := "https://broker.example/x%2Fy" }

/-- The segments a broker reads of the request a rotation sends. -/
def receivedSegments (c : Client) (r : RotateBindingRequest) : Option (Option (List GoString)) :=
  (rotateBinding c testWorld r).sent.map fun req => (targetSegments req).toOption

set_option maxRecDepth 10000 in
/-- The identifiers are pasted into the path as they are: an instance identifier holding a `/`
reaches the broker as two segments. And an escaped `/` in the client's URL reaches the broker
as one segment `x/y` or as two, `x` and `y`, depending on the identifiers: `EscapedPath` keeps
the URL as written only when every byte of it may stand in a path, and the space of `a b` may
not, so the path is then escaped anew from its decoded form. -/
theorem rotateBinding_segments_of_identifiers :
    receivedSegments (testClient version2_17 false (.error (.new "http error")))
        { defaultRotateBindingRequest with instanceID := "a/b" } =
      some (some [("" : GoString), "v2", "service_instances", "a", "b", "service_bindings",
        "test-binding-id"]) ∧
    receivedSegments escapedSlashClient defaultRotateBindingRequest =
      some (some [("" : GoString), "x/y", "v2", "service_instances", "test-instance-id",
        "service_bindings", "test-binding-id"]) ∧
    receivedSegments escapedSlashClient { defaultRotateBindingRequest with instanceID := "a b" } =
      some (some [("" : GoString), "x", "y", "v2", "service_instances", "a b",
        "service_bindings", "test-binding-id"]) := by
  decide

end OsbClient
