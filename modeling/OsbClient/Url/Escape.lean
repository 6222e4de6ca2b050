import OsbClient.Basic

/-!
# Percent-encoding, as `net/url` does it

`net/url` escapes and unescapes every part of a URL with two functions, `escape` and
`unescape`, parameterized by the part (`encoding`); which bytes stay as they are is decided by
`shouldEscape`. The client meets them three times: `url.Parse` unescapes the URL the client
builds, `Values.Encode` escapes the query it sets, and a broker undoes both.

The round trips are proved once for every mode that does not read `+` as a space
(`OsbClient.Url.unescape_escape`) and once for the query, which does
(`OsbClient.Url.unescape_escape_query`); both go byte by byte, as the escaper does, with
`OsbClient.Url.unescape_escapeByte` as the step.

`url.Parse` unescapes a URL in one piece and a server its path in others, so the last section
reads a text in pieces: a text that unescapes is unescaped apart from what follows it
(`OsbClient.Url.unescape_append`), a text without `%` reads as itself, and the path and the path
segment modes read every text alike (`OsbClient.Url.unescape_path_eq_pathSegment`).
-/

namespace OsbClient

namespace Url

/-- `encoding`: the part of a URL a byte is escaped for. -/
inductive Encoding where
  | path
  | pathSegment
  | host
  | zone
  | userPassword
  | queryComponent
  | fragment
  deriving DecidableEq

/-- The bytes `shouldEscape` never escapes: letters, digits, `-`, `_`, `.` and `~`. -/
def isUnreserved (c : UInt8) : Bool :=
  isAlpha c || isDigit c || c.toNat = 0x2D || c.toNat = 0x5F || c.toNat = 0x2E || c.toNat = 0x7E

/-- The reserved bytes `shouldEscape` decides by mode: `$ & + , / : ; = ? @`. -/
def isReservedByMode (c : UInt8) : Bool :=
  c.toNat = 0x24 || c.toNat = 0x26 || c.toNat = 0x2B || c.toNat = 0x2C || c.toNat = 0x2F ||
    c.toNat = 0x3A || c.toNat = 0x3B || c.toNat = 0x3D || c.toNat = 0x3F || c.toNat = 0x40

/-- The bytes a host may hold as they are beyond the unreserved ones. -/
def isHostExtra (c : UInt8) : Bool :=
  c.toNat = 0x21 || c.toNat = 0x24 || c.toNat = 0x26 || c.toNat = 0x27 || c.toNat = 0x28 ||
    c.toNat = 0x29 || c.toNat = 0x2A || c.toNat = 0x2B || c.toNat = 0x2C || c.toNat = 0x3B ||
    c.toNat = 0x3D || c.toNat = 0x3A || c.toNat = 0x5B || c.toNat = 0x5D || c.toNat = 0x3C ||
    c.toNat = 0x3E || c.toNat = 0x22

/-- **`shouldEscape`**: whether a byte must be percent-encoded in the given part. -/
def shouldEscape (c : UInt8) (mode : Encoding) : Bool :=
  if isAlpha c || isDigit c then false
  else if (mode = .host ∨ mode = .zone) ∧ isHostExtra c then false
  else if c.toNat = 0x2D || c.toNat = 0x5F || c.toNat = 0x2E || c.toNat = 0x7E then false
  else if isReservedByMode c then
    match mode with
    | .path => c.toNat = 0x3F
    | .pathSegment => c.toNat = 0x2F || c.toNat = 0x3B || c.toNat = 0x2C || c.toNat = 0x3F
    | .userPassword => c.toNat = 0x40 || c.toNat = 0x2F || c.toNat = 0x3F || c.toNat = 0x3A
    | .queryComponent => true
    | .fragment => false
    | .host | .zone => true
  else if mode = .fragment ∧
      (c.toNat = 0x21 || c.toNat = 0x28 || c.toNat = 0x29 || c.toNat = 0x2A) then false
  else true

/-- `%XX`, with upper-case digits. -/
def percentByte (c : UInt8) : GoString := [0x25, upperhex (c.toNat / 16), upperhex (c.toNat % 16)]

/-- The escape of one byte. -/
def escapeByte (mode : Encoding) (c : UInt8) : GoString :=
  if shouldEscape c mode then
    if c.toNat = 0x20 ∧ mode = .queryComponent then [0x2B] else percentByte c
  else [c]

/-- **`escape`**: each byte escaped on its own. -/
def escape (mode : Encoding) (s : GoString) : GoString := s.flatMap (escapeByte mode)

/-- The first three bytes from a `%`, which an `EscapeError` reports. -/
def escapeErr {α : Type} (s : GoString) : Except GoError α := .error (.escape (s.take 3))

/-- **`unescape`**: `%XX` to its byte, `+` to a space in a query component, and for a host or a
zone the checks that only non-ASCII bytes are escaped and only allowed ones are not. The first
fault, reading from the left, is the error. -/
def unescape (mode : Encoding) : GoString → Except GoError GoString
  | [] => .ok []
  | c :: rest =>
    if c.toNat = 0x25 then
      match rest with
      | a :: b :: rest' =>
        if isHex a && isHex b then
          let v := UInt8.ofNat (unhex a * 16 + unhex b)
          let pct25 := a.toNat = 0x32 ∧ b.toNat = 0x35
          if mode = .host ∧ unhex a < 8 ∧ ¬pct25 then escapeErr [c, a, b]
          else if mode = .zone ∧ ¬pct25 ∧ v.toNat ≠ 0x20 ∧ shouldEscape v .host then
            escapeErr [c, a, b]
          else (unescape mode rest').map (v :: ·)
        else escapeErr [c, a, b]
      | _ => escapeErr (c :: rest)
    else if c.toNat = 0x2B ∧ mode = .queryComponent then (unescape mode rest).map (0x20 :: ·)
    else if (mode = .host ∨ mode = .zone) ∧ c.toNat < 0x80 ∧ shouldEscape c mode then
      .error (.invalidHost [c])
    else (unescape mode rest).map (c :: ·)

/-- `validEncoded`: every byte either may stand in the part as it is or is a `%`. -/
def validEncoded (mode : Encoding) (s : GoString) : Bool :=
  s.all fun c =>
    c.toNat = 0x21 || c.toNat = 0x24 || c.toNat = 0x26 || c.toNat = 0x27 || c.toNat = 0x28 ||
      c.toNat = 0x29 || c.toNat = 0x2A || c.toNat = 0x2B || c.toNat = 0x2C || c.toNat = 0x3B ||
      c.toNat = 0x3D || c.toNat = 0x3A || c.toNat = 0x40 || c.toNat = 0x5B || c.toNat = 0x5D ||
      c.toNat = 0x25 || !shouldEscape c mode

/-- `url.QueryEscape`. -/
def queryEscape (s : GoString) : GoString := escape .queryComponent s

/-- `url.QueryUnescape`. -/
def queryUnescape (s : GoString) : Except GoError GoString := unescape .queryComponent s

/-- `url.PathUnescape`, as a broker reads a path segment. -/
def pathUnescape (s : GoString) : Except GoError GoString := unescape .pathSegment s

/-! ### Round trips -/

@[simp] theorem escape_nil (mode : Encoding) : escape mode [] = [] := rfl

@[simp] theorem escape_cons (mode : Encoding) (c : UInt8) (s : GoString) :
    escape mode (c :: s) = escapeByte mode c ++ escape mode s := rfl

@[simp] theorem escape_append (mode : Encoding) (s t : GoString) :
    escape mode (s ++ t) = escape mode s ++ escape mode t := List.flatMap_append _ _ _

/-- `unescape` on a byte that is not `%`. -/
theorem unescape_cons_of_ne {mode : Encoding} {c : UInt8} (h : c.toNat ≠ 0x25) (rest : GoString) :
    unescape mode (c :: rest) =
      if c.toNat = 0x2B ∧ mode = .queryComponent then (unescape mode rest).map (0x20 :: ·)
      else if (mode = .host ∨ mode = .zone) ∧ c.toNat < 0x80 ∧ shouldEscape c mode then
        .error (.invalidHost [c])
      else (unescape mode rest).map (c :: ·) := by
  match rest with
  | [] => simp only [unescape, if_neg h]
  | [_] => simp only [unescape, if_neg h]
  | _ :: _ :: _ => simp only [unescape, if_neg h]

/-- A byte that is neither `%` nor, in a query, `+` is read back as itself. -/
theorem unescape_cons_plain {mode : Encoding} {c : UInt8} (rest : GoString)
    (hpct : c.toNat ≠ 0x25) (hplus : ¬(c.toNat = 0x2B ∧ mode = .queryComponent))
    (hm : mode ≠ .host ∧ mode ≠ .zone) :
    unescape mode (c :: rest) = (unescape mode rest).map (c :: ·) := by
  have hh : ¬((mode = .host ∨ mode = .zone) ∧ c.toNat < 0x80 ∧ shouldEscape c mode) :=
    fun h => h.1.elim hm.1 hm.2
  rw [unescape_cons_of_ne hpct, if_neg hplus, if_neg hh]

/-- `shouldEscape` reads a byte only through its value. -/
theorem shouldEscape_congr {c d : UInt8} (h : c.toNat = d.toNat) (mode : Encoding) :
    shouldEscape c mode = shouldEscape d mode := by
  rw [← UInt8.ofNat_toNat' c, h, UInt8.ofNat_toNat']

/-- A `%` read back by `unescape`: the byte whose digits `upperhex` wrote. -/
theorem unescape_percentByte (mode : Encoding) (c : UInt8) (rest : GoString)
    (hm : mode ≠ .host ∧ mode ≠ .zone) :
    unescape mode (percentByte c ++ rest) = (unescape mode rest).map (c :: ·) := by
  have hc := c.toNat_lt
  have h1 : c.toNat / 16 < 16 := by omega
  have h2 : c.toNat % 16 < 16 := by omega
  simp only [percentByte, List.cons_append, List.nil_append, unescape, isHex_upperhex h1,
    isHex_upperhex h2, Bool.and_self, if_true, unhex_upperhex h1, unhex_upperhex h2, hm.1, hm.2,
    false_and, if_false]
  rw [show c.toNat / 16 * 16 + c.toNat % 16 = c.toNat by omega, UInt8.ofNat_toNat']
  rfl

/-- **The step of the round trips**: one escaped byte is read back as that byte, by the same
mode or, outside the query, by any mode that is not a host's. -/
theorem unescape_escapeByte (m m' : Encoding) (c : UInt8) (rest : GoString)
    (hm : m ≠ .host ∧ m ≠ .zone) (hq : m = .queryComponent ↔ m' = .queryComponent) :
    unescape m (escapeByte m' c ++ rest) = (unescape m rest).map (c :: ·) := by
  unfold escapeByte
  split
  · split
    · next h =>
      obtain ⟨hsp, hq'⟩ := h
      have hc : c = 0x20 := by rw [← UInt8.ofNat_toNat' c, hsp]; rfl
      subst hc
      rw [List.singleton_append, unescape_cons_of_ne (by decide),
        if_pos (⟨rfl, hq.2 hq'⟩ : (0x2B : UInt8).toNat = 0x2B ∧ m = .queryComponent)]
    · exact unescape_percentByte m c rest hm
  · next hesc =>
    refine unescape_cons_plain rest (fun h => ?_) (fun ⟨h, hq'⟩ => ?_) hm
    · rw [shouldEscape_congr (d := 0x25) h] at hesc; cases m' <;> revert hesc <;> decide
    · rw [shouldEscape_congr (d := 0x2B) h, hq.1 hq'] at hesc; revert hesc; decide

/-- **The path round trip**: outside the query and the host, the unescape of an escape is the
string escaped. -/
theorem unescape_escape (m m' : Encoding) (hm : m ≠ .host ∧ m ≠ .zone)
    (hq : m = .queryComponent ↔ m' = .queryComponent) (s rest : GoString) :
    unescape m (escape m' s ++ rest) = (unescape m rest).map (s ++ ·) := by
  induction s with
  | nil => simp only [escape_nil, List.nil_append]; cases unescape m rest <;> rfl
  | cons c s ih =>
    rw [escape_cons, List.append_assoc, unescape_escapeByte m m' c _ hm hq, ih]
    cases unescape m rest <;> rfl

/-- **The query round trip**: `QueryUnescape (QueryEscape s) = s`, for every byte string. -/
theorem unescape_escape_query (s : GoString) : queryUnescape (queryEscape s) = .ok s := by
  have h := unescape_escape .queryComponent .queryComponent (by simp) Iff.rfl s []
  rw [List.append_nil] at h
  exact h.trans (by simp [unescape, Except.map])

/-! ### Reading a text in pieces -/

/-- `unescape` at a `%` with two more bytes. -/
theorem unescape_pct {mode : Encoding} {c : UInt8} (hc : c.toNat = 0x25) (a b : UInt8)
    (rest : GoString) :
    unescape mode (c :: a :: b :: rest) =
      if isHex a && isHex b then
        if mode = .host ∧ unhex a < 8 ∧ ¬(a.toNat = 0x32 ∧ b.toNat = 0x35) then escapeErr [c, a, b]
        else if mode = .zone ∧ ¬(a.toNat = 0x32 ∧ b.toNat = 0x35) ∧
            (UInt8.ofNat (unhex a * 16 + unhex b)).toNat ≠ 0x20 ∧
            shouldEscape (UInt8.ofNat (unhex a * 16 + unhex b)) .host then escapeErr [c, a, b]
        else (unescape mode rest).map (UInt8.ofNat (unhex a * 16 + unhex b) :: ·)
      else escapeErr [c, a, b] := by
  simp only [unescape, if_pos hc]

theorem map_eq_ok {ε α β : Type} {f : α → β} {e : Except ε α} {b : β} (h : e.map f = .ok b) :
    ∃ a, e = .ok a ∧ f a = b := by
  cases e with
  | error => cases h
  | ok a => cases h; exact ⟨a, rfl, rfl⟩

theorem map_append_cons {ε : Type} (e : Except ε GoString) (c : UInt8) (r : GoString) :
    (e.map (r ++ ·)).map (c :: ·) = e.map ((c :: r) ++ ·) := by
  cases e <;> rfl

/-- **Unescaping a concatenation**: a text that unescapes is unescaped apart from what follows. -/
theorem unescape_append {m : Encoding} {a a' : GoString} (h : unescape m a = .ok a')
    (b : GoString) : unescape m (a ++ b) = (unescape m b).map (a' ++ ·) := by
  induction a using unescape.induct m generalizing a' with
  | case1 => cases h; rw [List.nil_append]; cases unescape m b <;> rfl
  | case2 c hc x y rest hxy =>
    rename_i hhost
    rw [unescape_pct hc, if_pos hxy, if_pos hhost] at h; cases h
  | case3 c hc x y rest hxy =>
    rename_i hhost hzone
    rw [unescape_pct hc, if_pos hxy, if_neg hhost, if_pos hzone] at h; cases h
  | case4 c hc x y rest hxy =>
    rename_i hhost hzone ih
    rw [unescape_pct hc, if_pos hxy, if_neg hhost, if_neg hzone] at h
    obtain ⟨r, hr, rfl⟩ := map_eq_ok h
    rw [List.cons_append, List.cons_append, List.cons_append, unescape_pct hc, if_pos hxy,
      if_neg hhost, if_neg hzone, ih hr, map_append_cons]
  | case5 c hc x y rest hxy =>
    rw [unescape_pct hc, if_neg hxy] at h; cases h
  | case6 c rest hc hshort =>
    match rest, hshort with
    | [], _ | [_], _ => simp only [unescape, if_pos hc] at h; cases h
    | x :: y :: rest', hshort => exact (hshort x y rest' rfl).elim
  | case7 c rest hc hplus ih =>
    rw [unescape_cons_of_ne hc, if_pos hplus] at h
    obtain ⟨r, hr, rfl⟩ := map_eq_ok h
    rw [List.cons_append, unescape_cons_of_ne hc, if_pos hplus, ih hr, map_append_cons]
  | case8 c rest hc hplus hhost =>
    rw [unescape_cons_of_ne hc, if_neg hplus, if_pos hhost] at h; cases h
  | case9 c rest hc hplus hhost ih =>
    rw [unescape_cons_of_ne hc, if_neg hplus, if_neg hhost] at h
    obtain ⟨r, hr, rfl⟩ := map_eq_ok h
    rw [List.cons_append, unescape_cons_of_ne hc, if_neg hplus, if_neg hhost, ih hr,
      map_append_cons]

/-- A text without `%` reads as itself, outside the host and the query. -/
theorem unescape_of_no_pct {m : Encoding} (hm : m ≠ .host ∧ m ≠ .zone ∧ m ≠ .queryComponent)
    {s : GoString} (h : ∀ c ∈ s, c.toNat ≠ 0x25) : unescape m s = .ok s := by
  induction s with
  | nil => rfl
  | cons c s ih =>
    rw [unescape_cons_plain s (h c (List.mem_cons_self _ _)) (fun h' => hm.2.2 h'.2) ⟨hm.1, hm.2.1⟩,
      ih fun d hd => h d (List.mem_cons_of_mem _ hd)]
    rfl

/-- `unescape` reads a text alike in any two modes that are neither the host's, the zone's nor
the query's. -/
theorem unescape_congr_mode {m m' : Encoding} (hm : m ≠ .host ∧ m ≠ .zone ∧ m ≠ .queryComponent)
    (hm' : m' ≠ .host ∧ m' ≠ .zone ∧ m' ≠ .queryComponent) (s : GoString) :
    unescape m s = unescape m' s := by
  induction s using unescape.induct m with
  | case1 => rfl
  | case2 c hc x y rest hxy => rename_i hhost; exact absurd hhost.1 hm.1
  | case3 c hc x y rest hxy => rename_i hhost hzone; exact absurd hzone.1 hm.2.1
  | case4 c hc x y rest hxy =>
    rename_i hhost hzone ih
    rw [unescape_pct hc, unescape_pct hc, if_pos hxy, if_pos hxy, if_neg hhost, if_neg hzone,
      if_neg (fun h => hm'.1 h.1), if_neg (fun h => hm'.2.1 h.1), ih]
  | case5 c hc x y rest hxy => rw [unescape_pct hc, unescape_pct hc, if_neg hxy, if_neg hxy]
  | case6 c rest hc hshort =>
    match rest, hshort with
    | [], _ | [_], _ => simp only [unescape, if_pos hc]
    | x :: y :: rest', hshort => exact (hshort x y rest' rfl).elim
  | case7 c rest hc hplus => exact absurd hplus.2 hm.2.2
  | case8 c rest hc hplus hhost => exact absurd hhost.1 (by simp [hm.1, hm.2.1])
  | case9 c rest hc hplus hhost ih =>
    rw [unescape_cons_plain rest hc hplus ⟨hm.1, hm.2.1⟩,
      unescape_cons_plain rest hc (fun h => hm'.2.2 h.2) ⟨hm'.1, hm'.2.1⟩, ih]

theorem unescape_path_eq_pathSegment (s : GoString) :
    unescape .path s = unescape .pathSegment s :=
  unescape_congr_mode (by decide) (by decide) s

end Url

end OsbClient
