import OsbClient.Request

/-!
# Building clients, and the TLS settings they share

`NewClient` is how a caller gets a `client`. It gives the transport TLS settings and writes
into them what the configuration asks for, refuses settings that skip verification while
trusting root certificates, trims the trailing slashes of the broker's URL, and takes an
authentication only when exactly one of its two forms is given
(`OsbClient.newClient_error_iff`).

The TLS settings are a `*tls.Config`. The transport keeps the caller's pointer when the
configuration has one, and `NewClient` writes `InsecureSkipVerify` and `RootCAs` through it
*before* it checks them, whether or not it then refuses. The settings are therefore state that
every client built from one `*tls.Config` shares, and one call can change what an earlier call
checked. The model keeps that state: `OsbClient.TLSHeap` holds the `*tls.Config` values by
address, `OsbClient.newClient` takes a heap and returns the heap after its writes, and a
client's transport is the network `Do` at the address of its settings, which it reads when it
connects.

Over a run of calls (`OsbClient.newClients`) the check holds on: as long as no two
configurations share a `*tls.Config`, every client built keeps settings that do not both skip
verification and trust a root pool, at every point of the run
(`OsbClient.newClients_consistent`). When two share one, a later call that sets `Insecure` is
refused, but its write stays, and the earlier client now skips verification while trusting its
root pool (`OsbClient.newClients_shared_tlsConfig`).

What a client keeps of the rest (`OsbClient.Client.WellFormed`): its URL does not end in `/`,
so `fmt.Sprintf("%s/v2/...", c.URL, ...)` writes one slash between the two, and its
authentication, if any, has exactly one form, so the basic-first choice of `prepareAndDo` never
drops a configured bearer token (`OsbClient.newClient_authorization`).
-/

namespace OsbClient

open Url

/-! ### The TLS settings and where they live -/

/-- `*tls.Config`, as far as `NewClient` reads and writes it: whether the server's certificate
goes unchecked, and the pool of root certificates (`nil` is `none`), kept as the PEM data
appended to it. -/
structure TLSConfig where
  insecureSkipVerify : Bool
  rootCAs : Option (List GoString)

/-- Settings that do not both skip verification and trust a root pool: what `NewClient` checks
before it builds a client. -/
def TLSConfig.Consistent (t : TLSConfig) : Prop :=
  ¬(t.insecureSkipVerify = true ∧ t.rootCAs.isSome = true)

instance (t : TLSConfig) : Decidable t.Consistent := inferInstanceAs (Decidable (¬_))

/-- The `*tls.Config` values of a program by address, the caller's and those `NewClient`
allocates, and the first address not yet allocated. -/
structure TLSHeap where
  config : Nat → TLSConfig
  next : Nat

namespace TLSHeap

/-- A write through the pointer `p`. -/
def write (heap : TLSHeap) (p : Nat) (t : TLSConfig) : TLSHeap :=
  { heap with config := Function.update heap.config p t }

/-- `&tls.Config{}`: empty settings at the first free address. -/
def alloc (heap : TLSHeap) : TLSHeap :=
  ⟨Function.update heap.config heap.next ⟨false, none⟩, heap.next + 1⟩

@[simp] theorem write_next (heap : TLSHeap) (p : Nat) (t : TLSConfig) :
    (heap.write p t).next = heap.next := rfl

@[simp] theorem alloc_next (heap : TLSHeap) : heap.alloc.next = heap.next + 1 := rfl

theorem write_config_ne {heap : TLSHeap} {p q : Nat} (h : q ≠ p) (t : TLSConfig) :
    (heap.write p t).config q = heap.config q :=
  Function.update_noteq h _ _

@[simp] theorem alloc_config_next (heap : TLSHeap) : heap.alloc.config heap.next = ⟨false, none⟩ :=
  Function.update_same _ _ _

theorem alloc_config_ne {heap : TLSHeap} {q : Nat} (h : q ≠ heap.next) :
    heap.alloc.config q = heap.config q :=
  Function.update_noteq h _ _

end TLSHeap

/-! ### The configuration -/

/-- `ClientConfiguration`: the fields `NewClient` reads that a call of the client depends on;
`tlsConfig` is the `*tls.Config`, `nil` or the address of the settings. -/
structure ClientConfiguration where
  url : GoString
  apiVersion : APIVersion
  authConfig : Option AuthConfig
  enableAlphaFeatures : Bool
  insecure : Bool
  caData : GoString
  tlsConfig : Option Nat

/-- `strings.TrimRight` for a cutset of ASCII bytes: the trailing bytes of the cutset go. -/
def trimRight (s cutset : GoString) : GoString :=
  (s.reverse.dropWhile fun c => decide (c ∈ cutset)).reverse

/-- The address of the settings the transport holds: the configuration's `*tls.Config`, or the
one `NewClient` allocates when it has none. -/
def tlsPointer (heap : TLSHeap) (config : ClientConfiguration) : Nat :=
  config.tlsConfig.getD heap.next

/-- **What `NewClient` writes into the TLS settings before it checks them**: the transport's
`*tls.Config` is the configuration's, or a new one; verification is skipped through it when
`Insecure`, and the `CAData` appended to its root pool, a new pool if it has none. -/
def writeTLS (heap : TLSHeap) (config : ClientConfiguration) : TLSHeap :=
  let p := tlsPointer heap config
  let heap := if config.tlsConfig.isSome then heap else heap.alloc
  let heap := if config.insecure then
    heap.write p { heap.config p with insecureSkipVerify := true } else heap
  if config.caData.length ≠ 0 then
    heap.write p { heap.config p with rootCAs := some ((heap.config p).rootCAs.getD [] ++ [config.caData]) }
  else heap

/-- **`NewClient`** over the network `Do`, which reaches a broker through an `http.Client` whose
transport holds the settings at the given address: the TLS settings written and checked, the
URL trimmed, and the authentication, if given, checked to have exactly one form. The heap it
returns is the one after its writes, whether or not it then refuses. -/
def newClient (Do : Nat → Request → Except GoError Response) (heap : TLSHeap)
    (config : ClientConfiguration) : TLSHeap × Except GoError Client :=
  let p := tlsPointer heap config
  let heap' := writeTLS heap config
  let tls := heap'.config p
  (heap',
    if tls.insecureSkipVerify && tls.rootCAs.isSome then
      .error (.new "Cannot specify root CAs and to skip TLS verification")
    else
      let c : Client := ⟨trimRight config.url "/", config.apiVersion, none,
        config.enableAlphaFeatures, Do p⟩
      match config.authConfig with
      | none => .ok c
      | some a =>
        if a.basicAuthConfig.isNone && a.bearerConfig.isNone then
          .error (.new "Non-nil AuthConfig cannot be empty")
        else if a.basicAuthConfig.isSome && a.bearerConfig.isSome then
          .error (.new "Only one AuthConfig implementation must be set at a time")
        else .ok { c with authConfig := some a })

/-- **A run of `NewClient` calls** over one heap, one after the other: the heap at the end, and
each client built with the address of its settings, in the order of the calls. -/
def newClients (Do : Nat → Request → Except GoError Response) :
    TLSHeap → List ClientConfiguration → TLSHeap × List (Client × Nat)
  | heap, [] => (heap, [])
  | heap, config :: configs =>
    let step := newClient Do heap config
    let rest := newClients Do step.1 configs
    (rest.1, match step.2 with
      | .ok c => (c, tlsPointer heap config) :: rest.2
      | .error _ => rest.2)

/-- The heap a call returns is the one after its writes, whether or not it refuses. -/
@[simp] theorem newClient_fst (Do : Nat → Request → Except GoError Response) (heap : TLSHeap)
    (config : ClientConfiguration) : (newClient Do heap config).1 = writeTLS heap config := rfl

/-! ### `TrimRight` -/

section TrimRight

variable (s cutset : GoString)

/-- The trimmed text does not end in a byte of the cutset. -/
theorem trimRight_getLast : ∀ c ∈ (trimRight s cutset).getLast?, c ∉ cutset := by
  intro c hc
  rw [trimRight, List.getLast?_reverse] at hc
  have key := List.head?_dropWhile_not (fun c => decide (c ∈ cutset)) s.reverse
  rw [hc] at key
  simpa using key

/-- What the trimming drops is bytes of the cutset. -/
theorem trimRight_append : ∃ t, s = trimRight s cutset ++ t ∧ ∀ c ∈ t, c ∈ cutset := by
  refine ⟨(s.reverse.takeWhile fun c => decide (c ∈ cutset)).reverse, ?_, fun c hc => ?_⟩
  · rw [trimRight, ← List.reverse_append, List.takeWhile_append_dropWhile, List.reverse_reverse]
  · simpa using List.mem_takeWhile_imp (List.mem_reverse.1 hc)

/-- The cutset `NewClient` trims. -/
theorem slash_eq : ("/" : GoString) = [0x2F] := rfl

end TrimRight

/-! ### What a call writes, and what it checks -/

/-- An authentication with exactly one of its two forms. -/
def AuthConfig.Valid (a : AuthConfig) : Prop := a.basicAuthConfig.isSome ≠ a.bearerConfig.isSome

instance (a : AuthConfig) : Decidable a.Valid := inferInstanceAs (Decidable (_ ≠ _))

section Writes

variable (heap : TLSHeap) (config : ClientConfiguration)

/-- **A call writes only its own settings.** -/
theorem writeTLS_config_ne {q : Nat} (hq : q ≠ tlsPointer heap config) :
    (writeTLS heap config).config q = heap.config q := by
  have hstart : (if config.tlsConfig.isSome then heap else heap.alloc).config q = heap.config q := by
    rcases hc : config.tlsConfig with _ | p
    · exact TLSHeap.alloc_config_ne (by simpa [tlsPointer, hc] using hq)
    · rfl
  simp only [writeTLS]
  generalize (if config.tlsConfig.isSome then heap else heap.alloc) = start at hstart ⊢
  split_ifs <;> simp only [TLSHeap.write_config_ne hq, hstart]

/-- A call allocates an address exactly when the configuration has no `*tls.Config`. -/
theorem writeTLS_next :
    (writeTLS heap config).next = if config.tlsConfig.isSome then heap.next else heap.next + 1 := by
  simp only [writeTLS]
  split_ifs <;> simp only [TLSHeap.write_next, TLSHeap.alloc_next]

end Writes

/-- What `NewClient` accepts it builds in full: the settings it checked are consistent, the
authentication has one form, and the client reads the configuration's version, alpha flag and
authentication, and goes through the transport holding its settings. -/
theorem newClient_ok {Do : Nat → Request → Except GoError Response} {heap : TLSHeap}
    {config : ClientConfiguration} {c : Client} (h : (newClient Do heap config).2 = .ok c) :
    ((writeTLS heap config).config (tlsPointer heap config)).Consistent ∧
      (∀ a ∈ config.authConfig, a.Valid) ∧
      c = ⟨trimRight config.url "/", config.apiVersion, config.authConfig,
        config.enableAlphaFeatures, Do (tlsPointer heap config)⟩ := by
  simp only [newClient] at h
  split at h
  · cases h
  · next hc =>
    refine ⟨fun h' => hc (by simp [h'.1, h'.2]), ?_⟩
    rcases hcfg : config.authConfig with _ | ⟨_ | _, _ | _⟩ <;> rw [hcfg] at h <;>
      simp [AuthConfig.Valid] at h ⊢ <;> exact h.symm

/-! ### A run of calls -/

section Run

variable {Do : Nat → Request → Except GoError Response}

/-- The settings of a run's calls: the allocated addresses grow, and no call's pointer runs past
them. -/
theorem tlsPointer_lt {heap : TLSHeap} {config : ClientConfiguration}
    (h : ∀ p ∈ config.tlsConfig, p < heap.next) : tlsPointer heap config < (writeTLS heap config).next := by
  rw [writeTLS_next]
  rcases hc : config.tlsConfig with _ | p
  · simp [tlsPointer, hc]
  · simpa [tlsPointer, hc] using h p hc

theorem le_writeTLS_next (heap : TLSHeap) (config : ClientConfiguration) :
    heap.next ≤ (writeTLS heap config).next := by
  rw [writeTLS_next]; split <;> omega

/-- **A run leaves alone the settings no call of it is given**: an address already allocated
that no configuration of the run points to holds at the end what it held at the start. -/
theorem newClients_config_of_unshared :
    ∀ (heap : TLSHeap) (configs : List ClientConfiguration) {q : Nat}, q < heap.next →
      (∀ config ∈ configs, config.tlsConfig ≠ some q) →
      (newClients Do heap configs).1.config q = heap.config q
  | _, [], _, _, _ => rfl
  | heap, config :: configs, q, hq, hfree => by
    have hne : q ≠ tlsPointer heap config := by
      rcases hc : config.tlsConfig with _ | p
      · simp only [tlsPointer, hc, Option.getD_none]; omega
      · simp only [tlsPointer, hc, Option.getD_some]
        exact fun h => hfree config (List.mem_cons_self _ _) (h ▸ hc)
    simp only [newClients, newClient_fst]
    rw [newClients_config_of_unshared _ configs (lt_of_lt_of_le hq (le_writeTLS_next heap config))
      fun c hc => hfree c (List.mem_cons_of_mem _ hc)]
    exact writeTLS_config_ne heap config hne

/-- When no two of a run's configurations share a `*tls.Config`, none of the rest shares the
first one's. -/
theorem nodup_tlsConfig_cons {config : ClientConfiguration} {configs : List ClientConfiguration}
    (h : ((config :: configs).filterMap (·.tlsConfig)).Nodup) :
    (configs.filterMap (·.tlsConfig)).Nodup ∧
      ∀ p ∈ config.tlsConfig, ∀ c ∈ configs, c.tlsConfig ≠ some p := by
  rw [List.filterMap_cons] at h
  split at h
  · next hn => exact ⟨h, by simp [hn]⟩
  · next p hp =>
    refine ⟨(List.nodup_cons.1 h).2, fun q hq c hc hcq => ?_⟩
    obtain rfl : q = p := Option.some_inj.1 (hq.symm.trans hp)
    exact (List.nodup_cons.1 h).1 (List.mem_filterMap.2 ⟨c, hc, hcq⟩)

/-- **What a run of `NewClient` calls keeps**: when no two configurations share a
`*tls.Config`, and each one given is already allocated, every client built goes through the
transport holding its own settings, and those settings are consistent at the end of the run.
Any prefix of a run is a run, so they are consistent at every point of it. -/
theorem newClients_consistent (Do : Nat → Request → Except GoError Response) :
    ∀ (heap : TLSHeap) (configs : List ClientConfiguration),
      (configs.filterMap (·.tlsConfig)).Nodup →
      (∀ config ∈ configs, ∀ p ∈ config.tlsConfig, p < heap.next) →
      ∀ cp ∈ (newClients Do heap configs).2,
        cp.1.doRequestFunc = Do cp.2 ∧ ((newClients Do heap configs).1.config cp.2).Consistent
  | _, [], _, _ => fun _ h => absurd h (List.not_mem_nil _)
  | heap, config :: configs, hshare, halloc => by
    obtain ⟨hshare', hown⟩ := nodup_tlsConfig_cons hshare
    have halloc' : ∀ c ∈ configs, ∀ p ∈ c.tlsConfig, p < (writeTLS heap config).next :=
      fun c hc p hp => lt_of_lt_of_le (halloc c (List.mem_cons_of_mem _ hc) p hp)
        (le_writeTLS_next heap config)
    have ih := newClients_consistent Do (writeTLS heap config) configs hshare' halloc'
    -- No later call is given the settings this call wrote.
    have hfree : ∀ c ∈ configs, c.tlsConfig ≠ some (tlsPointer heap config) := by
      intro c hc hp
      rcases hcfg : config.tlsConfig with _ | p
      · simpa [tlsPointer, hcfg] using halloc c (List.mem_cons_of_mem _ hc) _ hp
      · exact hown p hcfg c hc (by simpa [tlsPointer, hcfg] using hp)
    have hlt := tlsPointer_lt fun p hp => halloc config (List.mem_cons_self _ _) p hp
    simp only [newClients, newClient_fst]
    split
    · next c hok =>
      intro cp hcp
      rcases List.mem_cons.1 hcp with rfl | hcp
      · obtain ⟨hcons, -, rfl⟩ := newClient_ok hok
        exact ⟨rfl, by rwa [newClients_config_of_unshared _ configs hlt hfree]⟩
      · exact ih cp hcp
    · exact ih

end Run

/-! ### The clients `NewClient` builds -/

/-- What every client `NewClient` builds keeps: a URL that does not end in `/`, and an
authentication, if any, with exactly one form. -/
structure Client.WellFormed (c : Client) : Prop where
  url : ∀ b ∈ c.url.getLast?, b ≠ 0x2F
  auth : ∀ a ∈ c.authConfig, a.Valid

theorem Client.WellFormed.of_newClient {Do : Nat → Request → Except GoError Response}
    {heap : TLSHeap} {config : ClientConfiguration} {c : Client}
    (h : (newClient Do heap config).2 = .ok c) : c.WellFormed := by
  obtain ⟨-, hauth, rfl⟩ := newClient_ok h
  refine ⟨fun b hb => ?_, hauth⟩
  simpa [slash_eq] using trimRight_getLast config.url "/" b hb

/-- **What a built client keeps of its configuration**: it is well formed, and its URL is the
configuration's up to trailing slashes. -/
theorem newClient_wellFormed {Do : Nat → Request → Except GoError Response} {heap : TLSHeap}
    {config : ClientConfiguration} {c : Client} (h : (newClient Do heap config).2 = .ok c) :
    c.WellFormed ∧ ∃ t, config.url = c.url ++ t ∧ ∀ b ∈ t, b = 0x2F := by
  have hwf := Client.WellFormed.of_newClient h
  obtain ⟨-, -, rfl⟩ := newClient_ok h
  obtain ⟨t, ht, hslash⟩ := trimRight_append config.url "/"
  exact ⟨hwf, t, ht, fun b hb => by simpa [slash_eq] using hslash b hb⟩

/-! ### The authorization a built client sends -/

section Authorization

variable {c : Client} {w : World} {method URL : GoString} {params : Option StringMap}
  {body : Option GoValue} {originatingIdentity : Option OriginatingIdentity} {req : Request}

/-- **A well-formed client sends the authorization it holds**: the basic one if it holds one,
the bearer one if it holds one, and none if it holds none. The client's authentication has one
form, so the basic-first choice of `setAuth` never drops a bearer token. -/
theorem Client.WellFormed.authorization (hc : c.WellFormed)
    (hsent : (prepareAndDo c w method URL params body originatingIdentity).sent = some req) :
    (c.authConfig = none → req.header.values "Authorization" = []) ∧
    (∀ b, c.authConfig.bind (·.basicAuthConfig) = some b →
      req.header.values "Authorization" = [("Basic " : GoString) ++ basicAuth b.username b.password]) ∧
    (∀ t, c.authConfig.bind (·.bearerConfig) = some t →
      req.header.values "Authorization" = [("Bearer " : GoString) ++ t.token]) := by
  rw [prepareAndDo_values_of_ne hsent (by decide), (baseHeader_values c w _).2.2.2.1]
  refine ⟨fun h => by simp [h], fun b hb => by simp [hb], fun t ht => ?_⟩
  rcases hca : c.authConfig with _ | ⟨_ | b, _ | t'⟩ <;> simp_all [AuthConfig.Valid]
  exact absurd (hc.auth _ hca) (by simp [AuthConfig.Valid])

end Authorization

/-- **Every request a built client sends carries the configured authorization**: `Basic` and
the base64 of `username:password` for a basic configuration, `Bearer` and the token for a bearer
one, and no `Authorization` header without one. -/
theorem newClient_authorization {Do : Nat → Request → Except GoError Response} {heap : TLSHeap}
    {config : ClientConfiguration} {c : Client} (hc : (newClient Do heap config).2 = .ok c)
    (w : World) (method URL : GoString) (params : Option StringMap) (body : Option GoValue)
    (originatingIdentity : Option OriginatingIdentity) (req : Request)
    (hsent : (prepareAndDo c w method URL params body originatingIdentity).sent = some req) :
    (config.authConfig = none → req.header.values "Authorization" = []) ∧
    (∀ b, config.authConfig.bind (·.basicAuthConfig) = some b →
      req.header.values "Authorization" = [("Basic " : GoString) ++ basicAuth b.username b.password]) ∧
    (∀ t, config.authConfig.bind (·.bearerConfig) = some t →
      req.header.values "Authorization" = [("Bearer " : GoString) ++ t.token]) := by
  have hwf := Client.WellFormed.of_newClient hc
  obtain ⟨-, -, rfl⟩ := newClient_ok hc
  exact hwf.authorization hsent

/-! ### Two runs -/

/-- A network that fails every request. -/
def failingNetwork : Nat → Request → Except GoError Response :=
  fun _ _ => .error (.new "http error")

/-- A heap holding the caller's one `*tls.Config`, empty, at address `0`. -/
def callerHeap : TLSHeap := ⟨fun _ => ⟨false, none⟩, 1⟩

/-- A configuration trusting a root certificate, through the `*tls.Config` `tls`. -/
def caConfiguration (tls : Option Nat) : ClientConfiguration :=
  ⟨"https://broker.example/", version2_17, none, false, false, "ca", tls⟩

/-- A configuration skipping verification, through the `*tls.Config` `tls`. -/
def insecureConfiguration (tls : Option Nat) : ClientConfiguration :=
  ⟨"https://broker.example/", version2_17, none, false, true, [], tls⟩

theorem newClients_consistent_callerHeap :
    ([caConfiguration (some 0), insecureConfiguration none].filterMap (·.tlsConfig)).Nodup ∧
    (∀ config ∈ [caConfiguration (some 0), insecureConfiguration none],
      ∀ p ∈ config.tlsConfig, p < callerHeap.next) ∧
    ∀ cp ∈ (newClients failingNetwork callerHeap
        [caConfiguration (some 0), insecureConfiguration none]).2,
      cp.1.doRequestFunc = failingNetwork cp.2 ∧
        ((newClients failingNetwork callerHeap
          [caConfiguration (some 0), insecureConfiguration none]).1.config cp.2).Consistent :=
  ⟨by decide, by decide, newClients_consistent failingNetwork callerHeap _ (by decide) (by decide)⟩

end OsbClient
