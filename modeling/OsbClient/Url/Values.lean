import OsbClient.Url.Escape
import Mathlib.Data.List.Lex
import Mathlib.Data.List.Sort

/-!
# Query strings: `url.Values`

A query is a map from keys to lists of values. `Values.Encode` writes it in the form of
`application/x-www-form-urlencoded`, its keys sorted, each `key=value` pair escaped with
`QueryEscape` and the pairs joined by `&`; `ParseQuery` reads such a text back, piece by piece.

The map is the structure `OsbClient.Url.Values`, whose keys are distinct by construction. Its
entries are kept in the order they were added, but no operation of `net/url` reads that order:
`Values.Encode` sorts the keys first, which is what makes the query independent of the order a
Go map hands its entries to a loop (`OsbClient.Url.Values.encode_congr`).

The round trip (`OsbClient.Url.parseQuery_encode`) is the composition of three facts: an
escaped key or value holds no `&`, `=` or `;` (`OsbClient.Url.separator_not_mem_queryEscape`),
so splitting on `&` and cutting at the first `=` find the pieces the encoder joined; and
`QueryUnescape` undoes `QueryEscape` (`OsbClient.Url.unescape_escape_query`).
-/

namespace OsbClient

namespace Url

/-- The order `sort.Strings` puts Go strings in: lexicographic on their bytes. -/
def ByteLe (a b : GoString) : Prop := a.map UInt8.toNat ≤ b.map UInt8.toNat

instance : DecidableRel ByteLe := fun a b =>
  inferInstanceAs (Decidable (a.map UInt8.toNat ≤ b.map UInt8.toNat))

instance : IsTotal GoString ByteLe := ⟨fun _ _ => le_total _ _⟩

instance : IsTrans GoString ByteLe := ⟨fun _ _ _ => le_trans⟩

instance : IsAntisymm GoString ByteLe :=
  ⟨fun _ _ h₁ h₂ => List.map_injective_iff.2 (fun _ _ => UInt8.toNat.inj) (le_antisymm h₁ h₂)⟩

/-- `url.Values`: keys to the lists of their values, each key once. -/
structure Values where
  entries : List (GoString × List GoString)
  nodup : (entries.map Prod.fst).Nodup

namespace Values

/-- The empty map, `make(Values)`. -/
def empty : Values := ⟨[], List.nodup_nil⟩

/-- The keys, in the order they were added. -/
def keys (v : Values) : List GoString := v.entries.map Prod.fst

/-- The values an association list holds at `key`, `nil` if none. -/
def lookupIn (key : GoString) : List (GoString × List GoString) → List GoString
  | [] => []
  | e :: rest => if e.1 = key then e.2 else lookupIn key rest

/-- `v[key]`: the values of a key, `nil` for a key that is absent. -/
def lookup (v : Values) (key : GoString) : List GoString := lookupIn key v.entries

/-- The entry of `key` rewritten by `f`; any other entry as it is. -/
def setEntry (key : GoString) (f : List GoString → List GoString) (e : GoString × List GoString) :
    GoString × List GoString :=
  if e.1 = key then (key, f e.2) else e

theorem map_fst_setEntry (key : GoString) (f : List GoString → List GoString)
    (l : List (GoString × List GoString)) : (l.map (setEntry key f)).map Prod.fst = l.map Prod.fst := by
  simp only [List.map_map]
  exact List.map_congr_left fun e _ => by by_cases he : e.1 = key <;> simp [setEntry, he]

/-- Write `f` of the old values at `key`: in place if the key is present, at the end if not. -/
def upsert (v : Values) (key : GoString) (f : List GoString → List GoString) : Values :=
  if h : key ∈ v.keys then
    ⟨v.entries.map (setEntry key f), (map_fst_setEntry key f v.entries).symm ▸ v.nodup⟩
  else ⟨v.entries ++ [(key, f [])], by
    rw [List.map_append, List.nodup_append]
    exact ⟨v.nodup, List.nodup_singleton _, fun a ha hb => h (by
      simp only [List.map_cons, List.map_nil, List.mem_singleton] at hb
      exact hb ▸ ha)⟩⟩

/-- `Set`: the key's values become the one value. -/
def set (v : Values) (key value : GoString) : Values := v.upsert key fun _ => [value]

/-- `Add`: the value is appended to the key's values. -/
def add (v : Values) (key value : GoString) : Values := v.upsert key fun old => old ++ [value]

/-- **`Encode`**: the keys sorted, and for each key each of its values as an escaped
`key=value`, joined by `&`. -/
def encode (v : Values) : GoString :=
  [0x26].intercalate ((v.keys.insertionSort ByteLe).flatMap fun k =>
    (v.lookup k).map fun x => queryEscape k ++ [0x3D] ++ queryEscape x)

/-- The pairs `Encode` writes, in the order it writes them. -/
def pairs (v : Values) : List (GoString × GoString) :=
  (v.keys.insertionSort ByteLe).flatMap fun k => (v.lookup k).map (k, ·)

theorem encode_eq_pairs (v : Values) :
    v.encode = [0x26].intercalate (v.pairs.map fun p => queryEscape p.1 ++ [0x3D] ++ queryEscape p.2) := by
  simp [encode, pairs, List.map_flatMap, Function.comp_def]

/-! ### Lookups after an update -/

theorem lookupIn_eq_nil {key : GoString} {l : List (GoString × List GoString)}
    (h : key ∉ l.map Prod.fst) : lookupIn key l = [] := by
  induction l with
  | nil => rfl
  | cons e l ih =>
    simp only [List.map_cons, List.mem_cons, not_or] at h
    rw [lookupIn, if_neg (Ne.symm h.1), ih h.2]

theorem lookupIn_setEntry_ne {k key : GoString} (hk : k ≠ key) (f : List GoString → List GoString)
    (l : List (GoString × List GoString)) : lookupIn key (l.map (setEntry k f)) = lookupIn key l := by
  induction l with
  | nil => rfl
  | cons e l ih =>
    by_cases he : e.1 = k
    · simp [lookupIn, setEntry, he, hk, ih]
    · simp [lookupIn, setEntry, he, ih]

theorem lookupIn_setEntry_self {k : GoString} {l : List (GoString × List GoString)}
    (f : List GoString → List GoString) (h : k ∈ l.map Prod.fst) :
    lookupIn k (l.map (setEntry k f)) = f (lookupIn k l) := by
  induction l with
  | nil => simp at h
  | cons e l ih =>
    by_cases he : e.1 = k
    · simp [lookupIn, setEntry, he]
    · have h' : k ∈ l.map Prod.fst := by
        simp only [List.map_cons, List.mem_cons] at h; exact h.resolve_left (Ne.symm he)
      simp [lookupIn, setEntry, he, ih h']

theorem lookupIn_append (key : GoString) (l r : List (GoString × List GoString)) :
    lookupIn key (l ++ r) = if key ∈ l.map Prod.fst then lookupIn key l else lookupIn key r := by
  induction l with
  | nil => simp [lookupIn]
  | cons e l ih =>
    by_cases he : e.1 = key
    · simp [lookupIn, he]
    · have hne : ¬key = e.1 := fun h => he h.symm
      by_cases hm : key ∈ l.map Prod.fst <;> simp [lookupIn, he, ih, hm, hne]

/-- **What an update leaves at a key**: `f` of the old values at the key written, the old
values elsewhere. -/
theorem lookup_upsert (v : Values) (k key : GoString) (f : List GoString → List GoString) :
    (v.upsert k f).lookup key = if k = key then f (v.lookup key) else v.lookup key := by
  unfold upsert lookup
  split
  · next h =>
    by_cases hk : k = key
    · subst hk; rw [if_pos rfl, lookupIn_setEntry_self f h]
    · rw [if_neg hk, lookupIn_setEntry_ne hk]
  · next h =>
    have h' : k ∉ v.entries.map Prod.fst := h
    rw [lookupIn_append]
    by_cases hk : k = key
    · subst hk; rw [if_neg h', if_pos rfl, lookupIn_eq_nil h']; simp [lookupIn]
    · by_cases hm : key ∈ v.entries.map Prod.fst
      · simp [hm, hk]
      · simp [hm, hk, lookupIn, lookupIn_eq_nil hm, Ne.symm hk]

@[simp] theorem lookup_set (v : Values) (k key x : GoString) :
    (v.set k x).lookup key = if k = key then [x] else v.lookup key := lookup_upsert ..

@[simp] theorem lookup_add (v : Values) (k key x : GoString) :
    (v.add k x).lookup key = if k = key then v.lookup key ++ [x] else v.lookup key :=
  lookup_upsert ..

@[simp] theorem lookup_empty (key : GoString) : empty.lookup key = [] := rfl

theorem lookup_foldl_set_of_not_mem {ps : List (GoString × GoString)} {key : GoString}
    (h : key ∉ ps.map Prod.fst) (w : Values) :
    (ps.foldl (fun w p => w.set p.1 p.2) w).lookup key = w.lookup key := by
  induction ps generalizing w with
  | nil => rfl
  | cons p ps ih =>
    rw [List.map_cons, List.mem_cons, not_or] at h
    rw [List.foldl_cons, ih h.2, lookup_set, if_neg (Ne.symm h.1)]

theorem lookup_foldl_set_of_mem {ps : List (GoString × GoString)} (hnd : (ps.map Prod.fst).Nodup)
    {key x : GoString} (h : (key, x) ∈ ps) (w : Values) :
    (ps.foldl (fun w p => w.set p.1 p.2) w).lookup key = [x] := by
  induction ps generalizing w with
  | nil => simp at h
  | cons p ps ih =>
    rw [List.map_cons, List.nodup_cons] at hnd
    rw [List.foldl_cons]
    rcases List.mem_cons.1 h with rfl | h
    · rw [lookup_foldl_set_of_not_mem hnd.1, lookup_set, if_pos rfl]
    · exact ih hnd.2 h _

theorem keys_upsert_of_not_mem {v : Values} {key : GoString} (h : key ∉ v.keys)
    (f : List GoString → List GoString) : (v.upsert key f).keys = v.keys ++ [key] := by
  rw [upsert, dif_neg h]
  simp [keys]

/-- Updates at fresh keys append the keys, in order. -/
theorem keys_foldl_upsert (g : GoString × GoString → List GoString → List GoString)
    (ps : List (GoString × GoString)) (w : Values) (h : (w.keys ++ ps.map Prod.fst).Nodup) :
    (ps.foldl (fun w p => w.upsert p.1 (g p)) w).keys = w.keys ++ ps.map Prod.fst := by
  induction ps generalizing w with
  | nil => simp
  | cons p ps ih =>
    have hp : p.1 ∉ w.keys := fun hm => (List.nodup_append.1 h).2.2 hm (by simp)
    rw [List.foldl_cons, ih, keys_upsert_of_not_mem hp]
    · simp
    · simpa [keys_upsert_of_not_mem hp] using h

/-- Adding pairs one after the other appends to each key its values, in order. -/
theorem lookup_foldl_add (ps : List (GoString × GoString)) (w : Values) (key : GoString) :
    (ps.foldl (fun w p => w.add p.1 p.2) w).lookup key =
      w.lookup key ++ (ps.filter (·.1 = key)).map Prod.snd := by
  induction ps generalizing w with
  | nil => simp
  | cons p ps ih =>
    by_cases hp : p.1 = key
    · simp [ih, hp, List.filter_cons]
    · simp [ih, hp, List.filter_cons]

/-- The values a list of `(k, x)` pairs holds under a key, keys grouped and each once. -/
theorem map_snd_filter_flatMap {ks : List GoString} (hks : ks.Nodup) (f : GoString → List GoString)
    (key : GoString) :
    ((ks.flatMap fun k => (f k).map (k, ·)).filter (·.1 = key)).map Prod.snd =
      if key ∈ ks then f key else [] := by
  induction ks with
  | nil => simp
  | cons k ks ih =>
    rw [List.nodup_cons] at hks
    by_cases hk : k = key
    · subst hk; simp [List.filter_map, Function.comp_def, ih hks.2, hks.1]
    · simp [List.filter_map, Function.comp_def, ih hks.2, hk, Ne.symm hk]

/-- The values `pairs` writes under a key: all those of the key. -/
theorem map_snd_filter_pairs (v : Values) (key : GoString) :
    (v.pairs.filter (·.1 = key)).map Prod.snd = v.lookup key := by
  rw [pairs, map_snd_filter_flatMap ((List.perm_insertionSort ByteLe v.keys).nodup_iff.2 v.nodup)]
  split
  · rfl
  · next h => exact (lookupIn_eq_nil (mt (List.perm_insertionSort ByteLe v.keys).mem_iff.2 h)).symm

end Values

/-- `strings.Cut(s, sep)` for a one-byte separator: what precedes the first separator and what
follows it, or the whole string and nothing. -/
def cut (sep : UInt8) : GoString → GoString × GoString
  | [] => ([], [])
  | c :: s => if c = sep then ([], s) else ((c :: (cut sep s).1), (cut sep s).2)

/-- The message of `parseQuery` for a piece holding a `;`. -/
def semicolonError : GoError := .new "invalid semicolon separator in query"

/-- One `&`-separated piece of a query read into the map: a piece with `;` sets the error, an
empty one is skipped, and a piece whose key or value does not unescape keeps the first error
and adds nothing. -/
def parsePiece (acc : Values × Option GoError) (piece : GoString) : Values × Option GoError :=
  if 0x3B ∈ piece then (acc.1, some semicolonError)
  else if piece = [] then acc
  else
    match queryUnescape (cut 0x3D piece).1, queryUnescape (cut 0x3D piece).2 with
    | .ok k, .ok x => (acc.1.add k x, acc.2)
    | .error e, _ | .ok _, .error e => (acc.1, some (acc.2.getD e))

/-- **`url.ParseQuery`**: the map of a query, with the error `parseQuery` reports, if any. -/
def parseQuery (query : GoString) : Values × Option GoError :=
  (query.splitOn 0x26).foldl parsePiece (Values.empty, none)

/-- The query of a URL without one is empty. -/
@[simp] theorem parseQuery_nil : parseQuery [] = (Values.empty, none) := rfl

/-! ### The round trip -/

theorem upperhex_not_separator {n : Nat} (h : n < 16) :
    (upperhex n).toNat ≠ 0x26 ∧ (upperhex n).toNat ≠ 0x3D ∧ (upperhex n).toNat ≠ 0x3B := by
  revert n; decide

/-- A byte a query keeps as it is is none of `&`, `=` and `;`. -/
theorem not_separator_of_kept {c : UInt8} (h : shouldEscape c .queryComponent = false) :
    c.toNat ≠ 0x26 ∧ c.toNat ≠ 0x3D ∧ c.toNat ≠ 0x3B := by
  refine ⟨fun hc => ?_, fun hc => ?_, fun hc => ?_⟩
  · rw [shouldEscape_congr (d := 0x26) hc] at h; revert h; decide
  · rw [shouldEscape_congr (d := 0x3D) hc] at h; revert h; decide
  · rw [shouldEscape_congr (d := 0x3B) hc] at h; revert h; decide

/-- **No separator in an escape**: `QueryEscape` writes no `&`, `=` or `;`. -/
theorem separator_not_mem_queryEscape {s : GoString} {c : UInt8} (h : c ∈ queryEscape s) :
    c.toNat ≠ 0x26 ∧ c.toNat ≠ 0x3D ∧ c.toNat ≠ 0x3B := by
  obtain ⟨b, -, hc⟩ := List.mem_flatMap.1 h
  unfold escapeByte at hc
  split at hc
  · split at hc
    · rw [List.mem_singleton.1 hc]; decide
    · have := b.toNat_lt
      simp only [percentByte, List.mem_cons, List.not_mem_nil, or_false] at hc
      rcases hc with rfl | rfl | rfl
      · decide
      · exact upperhex_not_separator (by omega)
      · exact upperhex_not_separator (by omega)
  · next hb => rw [List.mem_singleton.1 hc]; exact not_separator_of_kept (by simpa using hb)

theorem cut_of_not_mem {sep : UInt8} {s : GoString} (h : sep ∉ s) : cut sep s = (s, []) := by
  induction s with
  | nil => rfl
  | cons c s ih =>
    rw [List.mem_cons, not_or] at h
    simp [cut, Ne.symm h.1, ih h.2]

theorem cut_append (sep : UInt8) {k : GoString} (hk : sep ∉ k) (v : GoString) :
    cut sep (k ++ sep :: v) = (k, v) := by
  induction k with
  | nil => simp [cut]
  | cons c k ih =>
    rw [List.mem_cons, not_or] at hk
    simp [cut, Ne.symm hk.1, ih hk.2]

/-- An escaped `key=value` is read back as that pair. -/
theorem parsePiece_pair (acc : Values × Option GoError) (k x : GoString) :
    parsePiece acc (queryEscape k ++ [0x3D] ++ queryEscape x) = (acc.1.add k x, acc.2) := by
  have hsemi : (0x3B : UInt8) ∉ queryEscape k ++ [0x3D] ++ queryEscape x := by
    simp only [List.mem_append, List.mem_singleton, not_or]
    exact ⟨⟨fun h => (separator_not_mem_queryEscape h).2.2 rfl, by decide⟩,
      fun h => (separator_not_mem_queryEscape h).2.2 rfl⟩
  have hcut : cut 0x3D (queryEscape k ++ [0x3D] ++ queryEscape x) = (queryEscape k, queryEscape x) := by
    rw [List.append_assoc, List.singleton_append]
    exact cut_append 0x3D (fun h => (separator_not_mem_queryEscape h).2.1 rfl) _
  rw [parsePiece, if_neg hsemi, if_neg (by simp), hcut]
  simp only [unescape_escape_query]

theorem foldl_parsePiece_pairs (ps : List (GoString × GoString)) (acc : Values × Option GoError) :
    (ps.map fun p => queryEscape p.1 ++ [0x3D] ++ queryEscape p.2).foldl parsePiece acc =
      (ps.foldl (fun w p => w.add p.1 p.2) acc.1, acc.2) := by
  induction ps generalizing acc with
  | nil => rfl
  | cons p ps ih => simp only [List.map_cons, List.foldl_cons, parsePiece_pair, ih]

/-- `ParseQuery` of an encoded query: the encoder's pairs added one by one to an empty map. -/
theorem parseQuery_encode_eq (v : Values) :
    parseQuery v.encode = (v.pairs.foldl (fun w p => w.add p.1 p.2) Values.empty, none) := by
  rw [Values.encode_eq_pairs, parseQuery]
  cases hps : v.pairs with
  | nil => rfl
  | cons p ps =>
    rw [← hps, List.splitOn_intercalate, foldl_parsePiece_pairs]
    · intro l hl h
      obtain ⟨q, -, rfl⟩ := List.mem_map.1 hl
      simp only [List.mem_append, List.mem_singleton] at h
      exact h.elim (·.elim (fun h => (separator_not_mem_queryEscape h).1 rfl) (by decide))
        fun h => (separator_not_mem_queryEscape h).1 rfl
    · simp [hps]

/-- **The query round trip**: `ParseQuery` reads `Encode v` without error, and back to the values
`v` holds at every key. -/
theorem parseQuery_encode (v : Values) :
    (parseQuery v.encode).2 = none ∧ ∀ key, (parseQuery v.encode).1.lookup key = v.lookup key := by
  rw [parseQuery_encode_eq]
  exact ⟨rfl, fun key => by rw [Values.lookup_foldl_add, Values.map_snd_filter_pairs]; rfl⟩

/-- **`Encode` reads only the map**: two maps with the same keys and the same values at each key
encode to the same query, whatever order their keys were added in. -/
theorem Values.encode_congr {v w : Values} (hk : v.keys.Perm w.keys)
    (hl : ∀ key, v.lookup key = w.lookup key) : v.encode = w.encode := by
  have hs : v.keys.insertionSort ByteLe = w.keys.insertionSort ByteLe :=
    List.eq_of_perm_of_sorted
      ((List.perm_insertionSort _ _).trans (hk.trans (List.perm_insertionSort _ _).symm))
      (List.sorted_insertionSort _ _) (List.sorted_insertionSort _ _)
  simp only [Values.encode, hs, hl]

theorem map_fst_flatMap_singleton {ks : List GoString} {f : GoString → List GoString}
    (h : ∀ k ∈ ks, (f k).length = 1) : (ks.flatMap fun k => (f k).map (k, ·)).map Prod.fst = ks := by
  induction ks with
  | nil => rfl
  | cons k ks ih =>
    obtain ⟨y, hy⟩ := List.length_eq_one.1 (h k (List.mem_cons_self _ _))
    simp [hy, ih fun k hk => h k (List.mem_cons_of_mem _ hk)]

/-- The keys `ParseQuery` reads from `Encode v` when `v` holds one value at each key: the keys
of `v`, sorted. -/
theorem keys_parseQuery_encode {v : Values} (h : ∀ k ∈ v.keys, (v.lookup k).length = 1) :
    (parseQuery v.encode).1.keys = v.keys.insertionSort ByteLe := by
  have hks : v.pairs.map Prod.fst = v.keys.insertionSort ByteLe :=
    map_fst_flatMap_singleton fun k hk => h k ((List.perm_insertionSort _ _).mem_iff.1 hk)
  rw [parseQuery_encode_eq]
  refine (Values.keys_foldl_upsert (fun p old => old ++ [p.2]) v.pairs Values.empty ?_).trans ?_ <;>
    simp only [Values.keys, Values.empty, List.map_nil, List.nil_append, hks]
  exact (List.perm_insertionSort ByteLe v.keys).nodup_iff.2 v.nodup

/-! ### The query of a Go map -/

/-- A Go `map[string]string`: its entries, each key once. -/
structure StringMap where
  entries : List (GoString × GoString)
  nodup : (entries.map Prod.fst).Nodup

/-- An order a `range` loop may visit a map's entries in. Go leaves it unspecified, and draws a
new one for each loop: any order of the entries. -/
structure MapRange (m : StringMap) where
  order : List (GoString × GoString)
  perm : order.Perm m.entries

/-- The order the entries are stored in. -/
def MapRange.stored (m : StringMap) : MapRange m := ⟨m.entries, List.Perm.refl _⟩

/-- `for k, v := range params { q.Set(k, v) }`, visiting the entries in `order`. -/
def setAll (q : Values) (order : List (GoString × GoString)) : Values :=
  order.foldl (fun q kv => q.set kv.1 kv.2) q

section Range

variable {p : StringMap} (it : MapRange p)

theorem MapRange.nodup : (it.order.map Prod.fst).Nodup := (it.perm.map Prod.fst).nodup_iff.2 p.nodup

theorem keys_setAll : (setAll Values.empty it.order).keys = it.order.map Prod.fst :=
  Values.keys_foldl_upsert (fun kv _ => [kv.2]) it.order Values.empty it.nodup

theorem lookup_setAll_of_mem {k x : GoString} (h : (k, x) ∈ p.entries) :
    (setAll Values.empty it.order).lookup k = [x] :=
  Values.lookup_foldl_set_of_mem it.nodup (it.perm.mem_iff.2 h) _

theorem lookup_setAll_of_not_mem {k : GoString} (h : k ∉ p.entries.map Prod.fst) :
    (setAll Values.empty it.order).lookup k = [] :=
  Values.lookup_foldl_set_of_not_mem (fun hk => h ((it.perm.map Prod.fst).mem_iff.1 hk)) _

/-- **The loop's query does not depend on the order of the loop.** -/
theorem encode_setAll_range :
    (setAll Values.empty it.order).encode = (setAll Values.empty p.entries).encode := by
  refine Values.encode_congr ?_ fun key => ?_
  · rw [keys_setAll]
    exact (it.perm.map Prod.fst).trans (List.Perm.of_eq (keys_setAll (MapRange.stored p)).symm)
  · by_cases hk : key ∈ p.entries.map Prod.fst
    · obtain ⟨⟨k, x⟩, hm, rfl⟩ := List.mem_map.1 hk
      exact (lookup_setAll_of_mem it hm).trans (lookup_setAll_of_mem (MapRange.stored p) hm).symm
    · exact (lookup_setAll_of_not_mem it hk).trans
        (lookup_setAll_of_not_mem (MapRange.stored p) hk).symm

/-- **The loop's query reads back as the map**: without error, with the keys of `p` and each key
with its one value. -/
theorem parseQuery_setAll :
    (parseQuery (setAll Values.empty it.order).encode).2 = none ∧
    (parseQuery (setAll Values.empty it.order).encode).1.keys.Perm (p.entries.map Prod.fst) ∧
    ∀ k x, (k, x) ∈ p.entries → (parseQuery (setAll Values.empty it.order).encode).1.lookup k = [x] := by
  have hone : ∀ k ∈ (setAll Values.empty it.order).keys,
      ((setAll Values.empty it.order).lookup k).length = 1 := fun k hk => by
    rw [keys_setAll] at hk
    obtain ⟨⟨k, x⟩, hm, rfl⟩ := List.mem_map.1 hk
    rw [lookup_setAll_of_mem it (it.perm.mem_iff.1 hm)]; rfl
  refine ⟨(parseQuery_encode _).1, ?_, fun k x hm => ?_⟩
  · rw [keys_parseQuery_encode hone, keys_setAll]
    exact (List.perm_insertionSort _ _).trans (it.perm.map Prod.fst)
  · rw [(parseQuery_encode _).2, lookup_setAll_of_mem it hm]

end Range

end Url

end OsbClient
