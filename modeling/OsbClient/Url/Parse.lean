import OsbClient.Url.Values

/-!
# Parsing a URL: `url.Parse`

`http.NewRequest` parses the URL the client formats with `url.Parse`, and the request carries
the parsed `url.URL`: its path both decoded (`path`) and as written (`rawPath`, when the two
differ by more than the default escaping), and its query as written (`rawQuery`). What goes on
the wire is `RequestURI`, which writes the path back with `EscapedPath`.

The parser is transcribed step by step: the fragment cut at the first `#`, the scheme, the query
cut at the first `?`, the authority after `//` up to the next `/`, and the path unescaped by
`setPath`. The host's own checks (`parseHost`, its port and its zone) are kept, since they decide
whether a request is made at all; the user information is checked and then dropped, since
nothing the client does reads it.
-/

namespace OsbClient

namespace Url

/-- `url.URL`: the fields `Parse` sets that a request or a server reads. -/
structure URL where
  scheme : GoString := []
  opaqueText : GoString := []
  host : GoString := []
  path : GoString := []
  rawPath : GoString := []
  forceQuery : Bool := false
  rawQuery : GoString := []
  fragment : GoString := []

/-- `stringContainsCTLByte`: a byte below a space, or `DEL`. -/
def stringContainsCTLByte (s : GoString) : Bool := s.any fun b => b.toNat < 0x20 || b.toNat = 0x7F

/-- A byte that may follow the first one of a scheme. -/
def isSchemeByte (c : UInt8) : Bool :=
  isAlpha c || isDigit c || c.toNat = 0x2B || c.toNat = 0x2D || c.toNat = 0x2E

/-- The scan of `getScheme` from the second byte on: where a `:` ends the scheme, the bytes
before it and the rest; `none` where a byte that no scheme holds comes first, or no `:` does. -/
def schemeTail : GoString → Option (GoString × GoString)
  | [] => none
  | c :: rest =>
    if c.toNat = 0x3A then some ([], rest)
    else if isSchemeByte c then (schemeTail rest).map fun p => (c :: p.1, p.2)
    else none

/-- **`getScheme`**: the scheme and what follows its `:`, or no scheme and the whole text. -/
def getScheme (rawURL : GoString) : Except GoError (GoString × GoString) :=
  match rawURL with
  | [] => .ok ([], [])
  | c :: rest =>
    if isAlpha c then
      match schemeTail rest with
      | some p => .ok (c :: p.1, p.2)
      | none => .ok ([], rawURL)
    else if c.toNat = 0x3A then .error (.new "missing protocol scheme")
    else .ok ([], rawURL)

/-- `strings.ToLower` on a scheme, whose bytes are all ASCII. -/
def toLowerASCII (s : GoString) : GoString :=
  s.map fun c => if 0x41 ≤ c.toNat ∧ c.toNat ≤ 0x5A then c + 32 else c

/-- The text before the last `sep` and the text after it, if `sep` occurs
(`strings.LastIndex`). -/
def cutLast (sep : UInt8) (s : GoString) : Option (GoString × GoString) :=
  if sep ∈ s then
    some ((s.reverse.dropWhile (· != sep)).tail.reverse, (s.reverse.takeWhile (· != sep)).reverse)
  else none

/-- `validOptionalPort`: nothing, or a `:` and decimal digits. -/
def validOptionalPort : GoString → Bool
  | [] => true
  | c :: rest => c.toNat = 0x3A && rest.all isDigit

/-- `validUserinfo`: letters, digits, the bytes of its `switch`, and `%` and `@`. -/
def validUserinfo (s : GoString) : Bool :=
  s.all fun c => isAlpha c || isDigit c || c.toNat = 0x2D || c.toNat = 0x2E || c.toNat = 0x5F ||
    c.toNat = 0x3A || c.toNat = 0x7E || c.toNat = 0x21 || c.toNat = 0x24 || c.toNat = 0x26 ||
    c.toNat = 0x27 || c.toNat = 0x28 || c.toNat = 0x29 || c.toNat = 0x2A || c.toNat = 0x2B ||
    c.toNat = 0x2C || c.toNat = 0x3B || c.toNat = 0x3D || c.toNat = 0x25 || c.toNat = 0x40

/-- Where `%25` first stands in a text (`strings.Index(s, "%25")`). -/
def indexPct25 : GoString → Option Nat
  | [] => none
  | c :: rest =>
    if (c :: rest).take 3 = [0x25, 0x32, 0x35] then some 0 else (indexPct25 rest).map (· + 1)

/-- **`parseHost`**: a bracketed IP literal with an optional port and zone, or a name with an
optional port; the host unescaped. -/
def parseHost (host : GoString) : Except GoError GoString :=
  if host.head? = some 0x5B then
    match cutLast 0x5D host with
    | none => .error (.new "missing ']' in host")
    | some (inner, colonPort) =>
      if !validOptionalPort colonPort then .error (.quoted "invalid port " colonPort " after host")
      else
        match indexPct25 inner with
        | some zone => do
          let host1 ← unescape .host (inner.take zone)
          let host2 ← unescape .zone (inner.drop zone)
          let host3 ← unescape .host (0x5D :: colonPort)
          pure (host1 ++ host2 ++ host3)
        | none => unescape .host host
  else
    match cutLast 0x3A host with
    | some (_, port) =>
      if !validOptionalPort (0x3A :: port) then
        .error (.quoted "invalid port " (0x3A :: port) " after host")
      else unescape .host host
    | none => unescape .host host

/-- **`parseAuthority`**: the host, after the user information if there is an `@`; the user
information is checked and unescaped, and its value dropped. -/
def parseAuthority (authority : GoString) : Except GoError GoString :=
  match cutLast 0x40 authority with
  | none => parseHost authority
  | some (userinfo, hostPart) => do
    let host ← parseHost hostPart
    if !validUserinfo userinfo then throw (.new "net/url: invalid userinfo")
    if 0x3A ∈ userinfo then
      let _ ← unescape .userPassword (cut 0x3A userinfo).1
      let _ ← unescape .userPassword (cut 0x3A userinfo).2
    else
      let _ ← unescape .userPassword userinfo
    pure host

/-- **`setPath`**: the path decoded, and kept as written when the default escaping would not
write it so. -/
def setPath (u : URL) (p : GoString) : Except GoError URL :=
  (unescape .path p).map fun path =>
    { u with path := path, rawPath := if escape .path path = p then [] else p }

/-- The text after the scheme, its query cut off: the rest, whether it ended in a lone `?`
(`ForceQuery`), and the query. -/
def splitQuery (rest : GoString) : GoString × Bool × GoString :=
  if rest.getLast? = some 0x3F ∧ rest.count 0x3F = 1 then (rest.dropLast, true, [])
  else ((cut 0x3F rest).1, false, (cut 0x3F rest).2)

/-- **`parse`**, for a URL that is not the target of a request line. -/
def parseNoFragment (rawURL : GoString) : Except GoError URL :=
  if stringContainsCTLByte rawURL then .error (.new "net/url: invalid control character in URL")
  else if rawURL = [0x2A] then .ok { path := [0x2A] }
  else (getScheme rawURL).bind fun (scheme, rest) =>
    match splitQuery rest with
    | (rest, forceQuery, rawQuery) =>
    let u : URL := { scheme := toLowerASCII scheme, forceQuery := forceQuery, rawQuery := rawQuery }
    if rest.head? ≠ some 0x2F ∧ scheme ≠ [] then .ok { u with opaqueText := rest }
    else if rest.head? ≠ some 0x2F ∧ 0x3A ∈ (cut 0x2F rest).1 then
      .error (.new "first path segment in URL cannot contain colon")
    else if (scheme ≠ [] ∨ rest.take 3 ≠ [0x2F, 0x2F, 0x2F]) ∧ rest.take 2 = [0x2F, 0x2F] then
      (parseAuthority ((rest.drop 2).takeWhile (· != 0x2F))).bind fun host =>
        setPath { u with host := host } ((rest.drop 2).dropWhile (· != 0x2F))
    else setPath u rest

/-- **`url.Parse`**: the fragment cut off at the first `#`, the rest parsed, and the errors
wrapped in a `*url.Error`. -/
def parse (rawURL : GoString) : Except GoError URL :=
  match parseNoFragment (cut 0x23 rawURL).1 with
  | .error e => .error (.url "parse" (cut 0x23 rawURL).1 e)
  | .ok u =>
    if (cut 0x23 rawURL).2 = [] then .ok u
    else
      match unescape .fragment (cut 0x23 rawURL).2 with
      | .error e => .error (.url "parse" rawURL e)
      | .ok f => .ok { u with fragment := f }

/-- **`EscapedPath`**: the path as written when that is a valid encoding of it, and the default
escaping of the path otherwise. -/
def URL.escapedPath (u : URL) : GoString :=
  if u.rawPath ≠ [] ∧ validEncoded .path u.rawPath = true ∧
      (unescape .path u.rawPath).toOption = some u.path then u.rawPath
  else if u.path = [0x2A] then [0x2A]
  else escape .path u.path

/-- **`RequestURI`**: the target a request line carries, the query after a `?`. -/
def URL.requestURI (u : URL) : GoString :=
  let result :=
    if u.opaqueText = [] then (if u.escapedPath = [] then [0x2F] else u.escapedPath)
    else if u.opaqueText.take 2 = [0x2F, 0x2F] then u.scheme ++ [0x3A] ++ u.opaqueText
    else u.opaqueText
  if u.forceQuery ∨ u.rawQuery ≠ [] then result ++ [0x3F] ++ u.rawQuery else result

/-- **`Query`**: the query parsed, its error dropped. -/
def URL.query (u : URL) : Values := (parseQuery u.rawQuery).1

/-! ### A URL with an authority

The client formats its binding URL by appending to the text of its own URL. For a URL with a
scheme and an authority, and with no query, `parse` reads the authority from the text before the
first `/` after `//`, so what is appended after a `/` only extends the path: the parse of the
longer text is `setPath` of the parsed URL at the longer path (`OsbClient.Url.parseNoFragment_append`). -/

theorem schemeTail_eq {s a b : GoString} (h : schemeTail s = some (a, b)) : s = a ++ 0x3A :: b := by
  induction s generalizing a with
  | nil => cases h
  | cons c s ih =>
    rw [schemeTail] at h
    split at h
    · next hc => cases h; rw [← UInt8.ofNat_toNat' c, hc]; rfl
    · split at h
      · cases hs : schemeTail s with
        | none => rw [hs] at h; cases h
        | some q => rw [hs] at h; cases h; rw [ih hs]; rfl
      · cases h

theorem schemeTail_append {s a b : GoString} (h : schemeTail s = some (a, b)) (t : GoString) :
    schemeTail (s ++ t) = some (a, b ++ t) := by
  induction s generalizing a with
  | nil => cases h
  | cons c s ih =>
    rw [schemeTail] at h
    rw [List.cons_append, schemeTail]
    split at h
    · next hc => cases h; rw [if_pos hc]
    · next hc =>
      split at h
      · next hb =>
        cases hs : schemeTail s with
        | none => rw [hs] at h; cases h
        | some q => rw [hs] at h; cases h; rw [if_neg hc, if_pos hb, ih hs]; rfl
      · cases h

/-- A scheme is the text before the first `:`. -/
theorem getScheme_eq {s scheme rest : GoString} (h : getScheme s = .ok (scheme, rest))
    (hne : scheme ≠ []) : s = scheme ++ 0x3A :: rest := by
  cases s with
  | nil => cases h; exact absurd rfl hne
  | cons c s =>
    rw [getScheme] at h
    split at h
    · split at h
      · next p hp => cases h; rw [schemeTail_eq hp]; rfl
      · cases h; exact absurd rfl hne
    · split at h
      · cases h
      · cases h; exact absurd rfl hne

theorem getScheme_append {s scheme rest : GoString} (h : getScheme s = .ok (scheme, rest))
    (hne : scheme ≠ []) (t : GoString) : getScheme (s ++ t) = .ok (scheme, rest ++ t) := by
  cases s with
  | nil => cases h; exact absurd rfl hne
  | cons c s =>
    rw [getScheme] at h
    rw [List.cons_append, getScheme]
    split at h
    · next hc =>
      rw [if_pos hc]
      split at h
      · next p hp => cases h; rw [schemeTail_append hp]
      · cases h; exact absurd rfl hne
    · split at h
      · cases h
      · cases h; exact absurd rfl hne

theorem splitQuery_of_not_mem {rest : GoString} (h : 0x3F ∉ rest) :
    splitQuery rest = (rest, false, []) := by
  rw [splitQuery, if_neg (fun h' => h (List.mem_of_mem_getLast? h'.1)), cut_of_not_mem h]

/-- The scan for the end of the authority stops at the first byte it does not take. -/
theorem takeWhile_append_of_neg {p : UInt8 → Bool} {c : UInt8} (hc : p c = false)
    (s t : GoString) : (s ++ c :: t).takeWhile p = s.takeWhile p := by
  induction s with
  | nil => simp [hc]
  | cons d s ih => by_cases hd : p d <;> simp [List.takeWhile_cons, hd, ih]

theorem dropWhile_append_of_neg {p : UInt8 → Bool} {c : UInt8} (hc : p c = false)
    (s t : GoString) : (s ++ c :: t).dropWhile p = s.dropWhile p ++ c :: t := by
  induction s with
  | nil => simp [hc]
  | cons d s ih => by_cases hd : p d <;> simp [List.dropWhile_cons, hd, ih]

theorem setPath_ok {u v : URL} {p : GoString} (h : setPath u p = .ok v) :
    ∃ path, unescape .path p = .ok path ∧
      v = { u with path := path, rawPath := if escape .path path = p then [] else p } := by
  unfold setPath at h
  cases hp : unescape .path p with
  | error => rw [hp] at h; cases h
  | ok path => rw [hp] at h; cases h; exact ⟨path, rfl, rfl⟩

/-- `setPath` reads nothing of the path it replaces. -/
theorem setPath_of_setPath {u v : URL} {p : GoString} (h : setPath u p = .ok v) (q : GoString) :
    setPath v q = setPath u q := by
  obtain ⟨path, -, rfl⟩ := setPath_ok h
  rfl

/-- **A URL with an authority and no query**: the authority is the text after `//` up to the
next `/`, and the path is the rest. -/
theorem parseNoFragment_of_authority {s scheme rest : GoString}
    (hs : getScheme s = .ok (scheme, 0x2F :: 0x2F :: rest)) (hne : scheme ≠ [])
    (hq : 0x3F ∉ s) (hctl : stringContainsCTLByte s = false) :
    parseNoFragment s = (parseAuthority (rest.takeWhile (· != 0x2F))).bind fun host =>
      setPath { scheme := toLowerASCII scheme, host := host } (rest.dropWhile (· != 0x2F)) := by
  have hs' := getScheme_eq hs hne
  have hrest : 0x3F ∉ 0x2F :: 0x2F :: rest := fun h => hq (hs' ▸ List.mem_append_right _ (.tail _ h))
  have hstar : s ≠ [0x2A] := fun h => by
    have := congrArg List.length (hs'.symm.trans h)
    simp only [List.length_append, List.length_cons, List.length_nil] at this
    omega
  rw [parseNoFragment, if_neg (by simp [hctl]), if_neg hstar, hs]
  simp [Except.bind, splitQuery_of_not_mem hrest, hne]

/-- **Appending to the path**: for a URL with an authority and no query, text appended after a
`/` extends the path as written and leaves every other part of the parse as it was. -/
theorem parseNoFragment_append {base t scheme rest : GoString} {u : URL}
    (hs : getScheme base = .ok (scheme, 0x2F :: 0x2F :: rest)) (hne : scheme ≠ [])
    (hq : 0x3F ∉ base ++ t) (hctl : stringContainsCTLByte (base ++ t) = false)
    (ht : t.head? = some 0x2F) (hu : parseNoFragment base = .ok u) :
    ∃ p, p <:+ base ∧ setPath u p = .ok u ∧ u.opaqueText = [] ∧ u.rawQuery = [] ∧
      parseNoFragment (base ++ t) = setPath u (p ++ t) := by
  obtain ⟨t, rfl⟩ : ∃ t', t = 0x2F :: t' := match t, ht with | _ :: t', rfl => ⟨t', rfl⟩
  have hq₁ : 0x3F ∉ base := fun h => hq (List.mem_append_left _ h)
  have hctl₁ : stringContainsCTLByte base = false := by
    simp only [stringContainsCTLByte, List.any_append, Bool.or_eq_false_iff] at hctl ⊢
    exact hctl.1
  have hs₂ : getScheme (base ++ 0x2F :: t) = .ok (scheme, 0x2F :: 0x2F :: (rest ++ 0x2F :: t)) :=
    getScheme_append hs hne _
  rw [parseNoFragment_of_authority hs hne hq₁ hctl₁] at hu
  cases ha : parseAuthority (rest.takeWhile (· != 0x2F)) with
  | error => rw [ha] at hu; cases hu
  | ok host =>
    simp only [ha, Except.bind] at hu
    obtain ⟨path, -, hup⟩ := setPath_ok hu
    refine ⟨rest.dropWhile (· != 0x2F), ?_, by rw [setPath_of_setPath hu, hu], by rw [hup],
      by rw [hup], ?_⟩
    · rw [getScheme_eq hs hne]
      exact (List.dropWhile_suffix _).trans ⟨scheme ++ [0x3A, 0x2F, 0x2F], by simp⟩
    · rw [parseNoFragment_of_authority hs₂ hne hq hctl, takeWhile_append_of_neg rfl,
        dropWhile_append_of_neg rfl, ha, setPath_of_setPath hu]
      rfl

theorem stringContainsCTLByte_of_parseNoFragment {s : GoString} {u : URL} (h : parseNoFragment s = .ok u) :
    stringContainsCTLByte s = false := by
  cases hc : stringContainsCTLByte s with
  | false => rfl
  | true => rw [parseNoFragment, if_pos hc] at h; cases h

theorem parseNoFragment_of_parse {s : GoString} {u : URL} (h : 0x23 ∉ s) (hp : parse s = .ok u) :
    parseNoFragment s = .ok u := by
  rw [parse, cut_of_not_mem h] at hp
  split at hp
  · cases hp
  · next v hv => rw [if_pos rfl] at hp; cases hp; exact hv

end Url

end OsbClient
