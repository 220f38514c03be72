import ZetaRuntime.Json.ReadBack
import ZetaRuntime.Dispatch.Operations

/-!
# What canonical bytes determine

Two values with the same canonical bytes are the same value, whatever the order of their keys: the
bytes can be read in one way only. They are read by a parser that gives up at 128 levels of nesting,
and the writer has no such limit, so the bytes of a value that is nested deeper cannot be read at
all.

In the other direction, a value has several spellings as a JSON text. Blanks and the order of keys
do not matter, and the reader gives every integer one token: `0` and `-0` are read as the same
number. So texts of one value get the same bytes, which are those of the reference encoder, and the
same addresses.
-/

namespace Zeta

open Outcome

variable {m m' : Map} {v : Value} {q r : Value → Bool}

/-! ### Sorting keys -/

theorem allFields_sortKeys (fs : Map) :
    Value.allFields q (Map.sortKeys fs) = Value.allFields q fs := by
  rw [Bool.eq_iff_iff, allFields_iff, allFields_iff]
  simp only [(Map.sortKeys_perm fs).mem_iff]

/-- A condition that does not look inside holds of a sorted value if and only if it holds of the
value. -/
structure Shallow (q : Value → Bool) : Prop where
  array : ∀ vs : List Value, q (.array (Value.sortedList vs)) = q (.array vs)
  object : ∀ fs : Map, q (.object (Map.sortKeys (Value.sortedFields fs))) = q (.object fs)

mutual

theorem all_sorted (hq : Shallow q) : ∀ v : Value, v.sorted.all q = v.all q
  | .null | .bool _ | .number _ | .string _ => rfl
  | .array vs => by
    simp only [Value.sorted, Value.all, hq.array, allList_sortedList hq vs]
  | .object fs => by
    simp only [Value.sorted, Value.all, hq.object, allFields_sortKeys, allFields_sortedFields hq fs]

theorem allList_sortedList (hq : Shallow q) :
    ∀ vs : List Value, Value.allList q (Value.sortedList vs) = Value.allList q vs
  | [] => rfl
  | v :: vs => by
    simp only [Value.sortedList, Value.allList, all_sorted hq v, allList_sortedList hq vs]

theorem allFields_sortedFields (hq : Shallow q) :
    ∀ fs : Map, Value.allFields q (Value.sortedFields fs) = Value.allFields q fs
  | [] => rfl
  | (_, v) :: fs => by
    simp only [Value.sortedFields, Value.allFields, all_sorted hq v, allFields_sortedFields hq fs]

end

theorem keys_sortedFields (fs : Map) : (Value.sortedFields fs).map Prod.fst = fs.map Prod.fst := by
  simp [sortedFields_eq_map, Function.comp_def]

theorem shallow_isKeyed : Shallow Value.isKeyed := by
  refine ⟨fun _ => rfl, fun fs => ?_⟩
  have hperm := (Map.sortKeys_perm (Value.sortedFields fs)).map Prod.fst
  rw [keys_sortedFields] at hperm
  simp only [Value.isKeyed, hperm.nodup_iff]

theorem depthFields_perm {fs gs : Map} (h : fs.Perm gs) :
    Value.depthFields fs = Value.depthFields gs := by
  induction h with
  | nil => rfl
  | cons f _ ih => simp [Value.depthFields, ih]
  | swap f g fs => simp only [Value.depthFields]; omega
  | trans _ _ ih ih' => exact ih.trans ih'

mutual

theorem depth_sorted : ∀ v : Value, v.sorted.depth = v.depth
  | .null | .bool _ | .number _ | .string _ => rfl
  | .array vs => by simp only [Value.sorted, Value.depth, depthList_sortedList vs]
  | .object fs => by
    simp only [Value.sorted, Value.depth, depthFields_perm (Map.sortKeys_perm _),
      depthFields_sortedFields fs]

theorem depthList_sortedList : ∀ vs : List Value,
    Value.depthList (Value.sortedList vs) = Value.depthList vs
  | [] => rfl
  | v :: vs => by
    simp only [Value.sortedList, Value.depthList, depth_sorted v, depthList_sortedList vs]

theorem depthFields_sortedFields : ∀ fs : Map,
    Value.depthFields (Value.sortedFields fs) = Value.depthFields fs
  | [] => rfl
  | (_, v) :: fs => by
    simp only [Value.sortedFields, Value.depthFields, depth_sorted v, depthFields_sortedFields fs]

end

theorem Map.sortKeys_sortKeys (fs : Map) : Map.sortKeys (Map.sortKeys fs) = Map.sortKeys fs :=
  Map.sortKeys_of_sorted (Map.pairwise_sortKeys fs)

mutual

theorem sorted_sorted : ∀ v : Value, v.sorted.sorted = v.sorted
  | .null | .bool _ | .number _ | .string _ => rfl
  | .array vs => by simp only [Value.sorted, sortedList_sortedList vs]
  | .object fs => by
    have hcomm : Value.sortedFields (Map.sortKeys (Value.sortedFields fs))
        = Map.sortKeys (Value.sortedFields (Value.sortedFields fs)) := by
      rw [sortedFields_eq_map, ← Map.sortKeys_map, ← sortedFields_eq_map]
    simp only [Value.sorted]
    rw [hcomm, sortedFields_sortedFields fs, Map.sortKeys_sortKeys]

theorem sortedList_sortedList : ∀ vs : List Value,
    Value.sortedList (Value.sortedList vs) = Value.sortedList vs
  | [] => rfl
  | v :: vs => by simp only [Value.sortedList, sorted_sorted v, sortedList_sortedList vs]

theorem sortedFields_sortedFields : ∀ fs : Map,
    Value.sortedFields (Value.sortedFields fs) = Value.sortedFields fs
  | [] => rfl
  | (_, v) :: fs => by simp only [Value.sortedFields, sorted_sorted v, sortedFields_sortedFields fs]

end

/-! ### Accepted tokens -/

/-- An integer that fits `i64` or `u64`, if the value is a number at all. -/
def Value.isAccepted : Value → Bool
  | .number (.int n) => -2 ^ 63 ≤ n ∧ n < 2 ^ 64
  | .number (.float _) => false
  | .null | .bool _ | .string _ | .array _ | .object _ => true

theorem shallow_isIntegral : Shallow Value.isIntegral := ⟨fun _ => rfl, fun _ => rfl⟩

theorem shallow_isAccepted : Shallow Value.isAccepted := ⟨fun _ => rfl, fun _ => rfl⟩

theorem isIntegral_of_isAccepted (h : v.isAccepted = true) : v.isIntegral = true := by
  cases v with
  | number n =>
    cases n with
    | float token => cases h
    | int n => rfl
  | null | bool | string | array | object => rfl

mutual

theorem Value.all_mono (hqr : ∀ v, q v = true → r v = true) :
    ∀ v : Value, v.all q = true → v.all r = true
  | .null, h | .bool _, h | .number _, h | .string _, h => hqr _ h
  | .array vs, h => by
    simp only [Value.all, Bool.and_eq_true] at h ⊢
    exact ⟨hqr _ h.1, Value.allList_mono hqr vs h.2⟩
  | .object fs, h => by
    simp only [Value.all, Bool.and_eq_true] at h ⊢
    exact ⟨hqr _ h.1, Value.allFields_mono hqr fs h.2⟩

theorem Value.allList_mono (hqr : ∀ v, q v = true → r v = true) :
    ∀ vs : List Value, Value.allList q vs = true → Value.allList r vs = true
  | [], _ => rfl
  | v :: vs, h => by
    simp only [Value.allList, Bool.and_eq_true] at h ⊢
    exact ⟨Value.all_mono hqr v h.1, Value.allList_mono hqr vs h.2⟩

theorem Value.allFields_mono (hqr : ∀ v, q v = true → r v = true) :
    ∀ fs : Map, Value.allFields q fs = true → Value.allFields r fs = true
  | [], _ => rfl
  | (_, v) :: fs, h => by
    simp only [Value.allFields, Bool.and_eq_true] at h ⊢
    exact ⟨Value.all_mono hqr v h.1, Value.allFields_mono hqr fs h.2⟩

end

theorem integral_of_accepted (h : v.all Value.isAccepted = true) : v.all Value.isIntegral = true :=
  Value.all_mono (fun _ => isIntegral_of_isAccepted) v h

section

variable [FloatText]

theorem pythonNumber_of_accepted {n : Number} (h : Value.isAccepted (.number n) = true) :
    pythonNumber n = .ok n := by
  cases n with
  | int n =>
    simp only [Value.isAccepted, decide_eq_true_eq] at h
    rw [pythonNumber, if_pos h]
  | float token => cases h

mutual

/-- The canonical tree of a value with accepted numbers is the value with its keys sorted. -/
theorem canonical_of_accepted :
    ∀ {v : Value}, v.all Value.isAccepted = true → v.canonical = .ok v.sorted
  | .null, _ | .bool _, _ | .string _, _ => rfl
  | .number n, h => by
    rw [Value.canonical, pythonNumber_of_accepted h]
    rfl
  | .array vs, h => by
    simp only [Value.all, Bool.and_eq_true] at h
    rw [Value.canonical, canonicalList_of_accepted h.2]
    rfl
  | .object fs, h => by
    simp only [Value.all, Bool.and_eq_true] at h
    have hpayload : canonicalPayload fs = .ok (Map.sortKeys (Value.sortedFields fs)) := by
      rw [canonicalPayload_eq_ok_iff, sortedFields_eq_map, Map.sortKeys_map, List.map_map]
      refine List.map_congr_left fun p hp => ?_
      rw [canonicalFields_of_accepted h.2 p ((Map.sortKeys_perm fs).mem_iff.mp hp)]
      rfl
    rw [canonical_object, hpayload]
    rfl

theorem canonicalList_of_accepted : ∀ {vs : List Value}, Value.allList Value.isAccepted vs = true →
    Value.canonicalList vs = .ok (Value.sortedList vs)
  | [], _ => rfl
  | v :: vs, h => by
    simp only [Value.allList, Bool.and_eq_true] at h
    rw [Value.canonicalList, canonical_of_accepted h.1, canonicalList_of_accepted h.2]
    rfl

theorem canonicalFields_of_accepted : ∀ {fs : Map}, Value.allFields Value.isAccepted fs = true →
    ∀ p ∈ fs, p.2.canonical = .ok p.2.sorted
  | [], _, _, hp => nomatch hp
  | (_, v) :: fs, h, p, hp => by
    simp only [Value.allFields, Bool.and_eq_true] at h
    rcases List.mem_cons.mp hp with rfl | hp
    · exact canonical_of_accepted h.1
    · exact canonicalFields_of_accepted h.2 p hp

end

end

/-! ### The depth of a canonical tree -/

section

variable [FloatText]

theorem depthFields_of_map_eq {l : Map}
    (hl : ∀ p ∈ l, ∀ w, p.2.canonical = .ok w → w.depth = p.2.depth)
    (h : l.map (fun p => (p.1, p.2.canonical)) = m.map fun p => (p.1, .ok p.2)) :
    Value.depthFields m = Value.depthFields l := by
  induction l generalizing m with
  | nil =>
    rw [List.map_nil, eq_comm, List.map_eq_nil_iff] at h
    rw [h]
  | cons p l ih =>
    cases m with
    | nil => cases h
    | cons q m =>
      simp only [List.map_cons, List.cons.injEq, Prod.mk.injEq] at h
      obtain ⟨⟨-, hvalue⟩, hrest⟩ := h
      have hhead := hl p (.head _) q.2 hvalue
      have htail := ih (fun p hp => hl p (.tail _ hp)) hrest
      simp only [Value.depthFields, hhead, htail]

mutual

theorem depth_canonical : ∀ {v w : Value}, v.canonical = .ok w → w.depth = v.depth
  | .null, _, h | .bool _, _, h | .string _, _, h => by
    cases h
    rfl
  | .number _, _, h => by
    obtain ⟨m, -, rfl⟩ := canonical_ok_cases h
    rfl
  | .array vs, _, h => by
    obtain ⟨ws, hws, rfl⟩ := canonical_ok_cases h
    simp only [Value.depth, depthList_canonical hws]
  | .object fs, _, h => by
    obtain ⟨m, hm, rfl⟩ := canonical_ok_cases h
    have hmap := canonicalPayload_eq_ok_iff.mp hm
    have hfields := depthFields_of_map_eq
      (fun p hp => depthFields_canonical p ((Map.sortKeys_perm fs).mem_iff.mp hp)) hmap
    simp only [Value.depth, hfields, depthFields_perm (Map.sortKeys_perm fs)]

theorem depthList_canonical : ∀ {vs ws : List Value}, Value.canonicalList vs = .ok ws →
    Value.depthList ws = Value.depthList vs
  | [], _, h => by
    cases h
    rfl
  | v :: vs, _, h => by
    simp only [Value.canonicalList, ok_iff] at h
    obtain ⟨w, hw, ws, hws, rfl⟩ := h
    simp only [Value.depthList, depth_canonical hw, depthList_canonical hws]

theorem depthFields_canonical : ∀ {fs : Map}, ∀ p ∈ fs, ∀ w, p.2.canonical = .ok w →
    w.depth = p.2.depth
  | [], _, hp, _, _ => nomatch hp
  | (_, v) :: fs, p, hp, w, h => by
    rcases List.mem_cons.mp hp with rfl | hp
    · exact depth_canonical h
    · exact depthFields_canonical p hp w h

end

/-- Encoding a payload changes nothing about whether it can be read. -/
theorem readable_canonical (h : canonicalPayload m = .ok m') : readable m' = readable m := by
  have hobject : (Value.object m).canonical = .ok (.object m') := by
    rw [canonical_object, h]
    rfl
  simp only [readable, depth_canonical hobject]

end

/-! ### What the bytes determine -/

section

variable [StringText]

/-- The bytes of a value with accepted numbers are the text of the value with its keys sorted. -/
theorem canonicalJson_of_accepted [FloatText] (h : v.all Value.isAccepted = true) :
    canonicalJson v = .ok (render v.sorted) := by
  rw [canonicalJson_eq, canonical_of_accepted h]
  rfl

variable [LawfulStringText]

/-- Sorted values with one text are the same. -/
theorem sorted_eq_of_render_eq {w : Value} (hv : v.all Value.isIntegral = true)
    (hv' : v.all Value.isKeyed = true) (hw : w.all Value.isIntegral = true)
    (hw' : w.all Value.isKeyed = true) (h : render v.sorted = render w.sorted) :
    v.sorted = w.sorted := by
  apply eq_of_render_eq _ _ _ _ h
  · rwa [all_sorted shallow_isIntegral]
  · rwa [all_sorted shallow_isKeyed]
  · rwa [all_sorted shallow_isIntegral]
  · rwa [all_sorted shallow_isKeyed]

/-- A parser without a limit reads the sorted value from the bytes. -/
theorem parses_sorted (hv : v.all Value.isIntegral = true) (hv' : v.all Value.isKeyed = true)
    {d : ℕ} (hd : v.depth < d) : Parses d (render v.sorted) v.sorted := by
  apply parses_render
  · rwa [all_sorted shallow_isIntegral]
  · rwa [all_sorted shallow_isKeyed]
  · rwa [depth_sorted]

/-- The bytes can be read back if and only if the value is nested less than 128 levels deep. -/
theorem exists_parses_iff (hv : v.all Value.isIntegral = true) (hv' : v.all Value.isKeyed = true) :
    (∃ u, Parses recursionLimit (render v.sorted) u) ↔ v.depth < recursionLimit := by
  refine ⟨?_, fun hd => ⟨v.sorted, parses_sorted hv hv' hd⟩⟩
  rintro ⟨u, hu⟩
  have hdepth := Parses.depth_lt (by decide) hu
  rwa [hu.unique (parses_sorted hv hv' (Nat.lt_succ_self _)), depth_sorted] at hdepth

variable [FloatText]

/-- Canonical bytes determine the value. They can be read if and only if the value is nested less
than 128 levels deep, and encoding what was read gives the same bytes. -/
theorem canonicalJson_unambiguous :
    (∀ v w : Value, v.all Value.isAccepted = true → v.all Value.isKeyed = true →
      w.all Value.isAccepted = true → w.all Value.isKeyed = true →
      ∀ bytes, canonicalJson v = .ok bytes → canonicalJson w = .ok bytes → v.same w = true) ∧
    ∀ v : Value, v.all Value.isAccepted = true → v.all Value.isKeyed = true →
      ∀ bytes, canonicalJson v = .ok bytes →
        ((∃ u, Parses recursionLimit bytes u) ↔ v.depth < recursionLimit) ∧
        ∀ u, Parses recursionLimit bytes u → canonicalJson u = .ok bytes := by
  constructor
  · intro v w hv hv' hw hw' bytes hbytes hbytes'
    rw [canonicalJson_of_accepted hv] at hbytes
    rw [canonicalJson_of_accepted hw, ← hbytes] at hbytes'
    have hrender := Except.ok.inj hbytes'.symm
    rw [Value.same, decide_eq_true_eq]
    exact sorted_eq_of_render_eq (integral_of_accepted hv) hv' (integral_of_accepted hw) hw' hrender
  · intro v hv hv' bytes hbytes
    rw [canonicalJson_of_accepted hv] at hbytes
    obtain rfl := Except.ok.inj hbytes
    refine ⟨exists_parses_iff (integral_of_accepted hv) hv', fun u hu => ?_⟩
    have haccepted : v.sorted.all Value.isAccepted = true := by
      rwa [all_sorted shallow_isAccepted]
    rw [hu.unique (parses_sorted (integral_of_accepted hv) hv' (Nat.lt_succ_self _)),
      canonicalJson_of_accepted haccepted, sorted_sorted]

end

namespace Sample

/-- Escape a character of a string, and nothing but the quotation mark and the reverse solidus. -/
def escapeChar (c : Char) : List Char := if c = '"' ∨ c = '\\' then ['\\', c] else [c]

/-- Read characters up to a quotation mark that is not escaped. -/
def unescapeChars : List Char → Option (List Char × List Char)
  | [] => none
  | [c] => if c = '"' then some ([], []) else none
  | c :: d :: cs =>
    if c = '"' then some ([], d :: cs)
    else if c = '\\' then (unescapeChars cs).map fun p => (d :: p.1, p.2)
    else (unescapeChars (d :: cs)).map fun p => (c :: p.1, p.2)

/-- A plain way to write strings. -/
scoped instance stringText : StringText where
  escape s := s.toList.flatMap escapeChar ++ ['"']
  unescape cs := (unescapeChars cs).map fun p => (String.ofList p.1, p.2)

theorem unescapeChars_quote (rest : List Char) : unescapeChars ('"' :: rest) = some ([], rest) := by
  cases rest <;> rfl

theorem unescapeChars_escape (cs rest : List Char) :
    unescapeChars (cs.flatMap escapeChar ++ '"' :: rest) = some (cs, rest) := by
  induction cs with
  | nil => exact unescapeChars_quote rest
  | cons c cs ih =>
    rw [List.flatMap_cons, List.append_assoc]
    by_cases hc : c = '"' ∨ c = '\\'
    · rw [escapeChar, if_pos hc]
      simp [unescapeChars, ih]
    · -- the next character exists, since the closing quotation mark follows
      rw [escapeChar, if_neg hc]
      obtain ⟨d, ds, hds⟩ : ∃ d ds, cs.flatMap escapeChar ++ '"' :: rest = d :: ds := by
        cases h : cs.flatMap escapeChar ++ '"' :: rest with
        | nil => simp at h
        | cons d ds => exact ⟨d, ds, rfl⟩
      rw [not_or] at hc
      rw [hds] at ih ⊢
      simp [unescapeChars, hc.1, hc.2, ih]

scoped instance stringText_lawful : LawfulStringText where
  unescape_escape s rest := by
    show (unescapeChars (s.toList.flatMap escapeChar ++ ['"'] ++ rest)).map _ = _
    rw [List.append_assoc, List.cons_append, List.nil_append, unescapeChars_escape]
    simp

/-- Some arrays inside each other. -/
def nested : ℕ → Value
  | 0 => .null
  | n + 1 => .array [nested n]

theorem depth_nested (n : ℕ) : (nested n).depth = n := by
  induction n with
  | zero => rfl
  | succ n ih => simp [nested, Value.depth, Value.depthList, ih]

theorem all_nested (hnull : q .null = true) (harray : ∀ vs, q (.array vs) = true) (n : ℕ) :
    (nested n).all q = true := by
  induction n with
  | zero => exact hnull
  | succ n ih => simp [nested, Value.all, Value.allList, harray, ih]

/-- The bytes of 128 arrays inside each other cannot be read. -/
theorem nested_not_parsed :
    (nested 128).all Value.isAccepted = true ∧ (nested 128).all Value.isKeyed = true ∧
      ∃ bytes, @canonicalJson stringText platform.toFloatText (nested 128) = .ok bytes ∧
        ¬ ∃ u, Parses recursionLimit bytes u := by
  let _ : FloatText := platform.toFloatText
  have haccepted : (nested 128).all Value.isAccepted = true := all_nested rfl (fun _ => rfl) 128
  have hkeyed : (nested 128).all Value.isKeyed = true := all_nested rfl (fun _ => rfl) 128
  refine ⟨haccepted, hkeyed, _, canonicalJson_of_accepted haccepted, ?_⟩
  rw [exists_parses_iff (integral_of_accepted haccepted) hkeyed, depth_nested]
  decide

/-- An object with its keys out of order. -/
def crossed : Value := .object [("z", .array [.number (.int 2)]), ("a", .string "\"")]

/-- The bytes of a value with its keys out of order are read back. -/
theorem crossed_unambiguous :
    ∃ bytes, @canonicalJson stringText platform.toFloatText crossed = .ok bytes ∧
      (∃ u, Parses recursionLimit bytes u) ∧
      ∀ u, Parses recursionLimit bytes u →
        @canonicalJson stringText platform.toFloatText u = .ok bytes := by
  let _ : FloatText := platform.toFloatText
  have haccepted : crossed.all Value.isAccepted = true := by decide
  have hkeyed : crossed.all Value.isKeyed = true := by decide
  have hbytes := canonicalJson_of_accepted haccepted
  obtain ⟨hparses, hagain⟩ := canonicalJson_unambiguous.2 crossed haccepted hkeyed _ hbytes
  exact ⟨_, hbytes, hparses.mpr (by decide), hagain⟩

end Sample

/-! ### Addresses -/

section

variable [Platform]

/-- The two addresses of an entry. -/
def JournalEntry.addresses (entry : JournalEntry) : Hash × Hash :=
  (entry.payloadAddress, entry.entryAddress)

theorem canonicalPayload_congr (h : (Value.object m).canonical = (Value.object m').canonical) :
    canonicalPayload m = canonicalPayload m' := by
  rw [canonical_object, canonical_object] at h
  cases hm : canonicalPayload m with
  | error e =>
    cases hm' : canonicalPayload m' with
    | error e' => rw [hm, hm'] at h; cases h; rfl
    | ok b' => rw [hm, hm'] at h; cases h
  | ok b =>
    cases hm' : canonicalPayload m' with
    | error e' => rw [hm, hm'] at h; cases h
    | ok b' => rw [hm, hm'] at h; cases h; rfl

theorem contentAddress_congr (h : (Value.object m).canonical = (Value.object m').canonical)
    (kind schema : String) (links : List String) :
    Object.contentAddress ⟨kind, schema, m, links⟩ =
      Object.contentAddress ⟨kind, schema, m', links⟩ := by
  have hvalue : (Object.toValue ⟨kind, schema, m, links⟩).canonical
      = (Object.toValue ⟨kind, schema, m', links⟩).canonical := by
    rw [Object.toValue, Object.toValue, canonical_object, canonical_object, canonicalPayload,
      canonicalPayload, canonicalFields_eq_map, canonicalFields_eq_map]
    simp only [List.map_cons, List.map_nil, h]
  rw [Object.contentAddress, Object.contentAddress, hvalue]

theorem addresses_congr (h : (Value.object m).canonical = (Value.object m').canonical)
    (event : Event) (cursor : ℕ) (previous : Option Hash) :
    (JournalEntry.new { event with payload := m } cursor previous).map JournalEntry.addresses
      = (JournalEntry.new { event with payload := m' } cursor previous).map
        JournalEntry.addresses := by
  have hfields : validateIdentityFields { event with payload := m }
      = validateIdentityFields { event with payload := m' } := rfl
  have haddress : ∀ address, entryAddress { event with payload := m, cursor := some cursor } address
    previous
      = entryAddress { event with payload := m', cursor := some cursor } address
        previous := fun _ => rfl
  simp only [JournalEntry.new, canonicalPayload_congr h, hfields, haddress]
  cases ensure (cursor ≠ 0) AppendError.cursorZero with
  | error e => rfl
  | ok _ =>
    cases validateIdentityFields { event with payload := m' } with
    | error e => rfl
    | ok _ =>
      cases (canonicalPayload m').mapError AppendError.payloadEncoding with
      | error e => rfl
      | ok bytes =>
        simp only [ok_bind]
        cases entryAddress { event with payload := m', cursor := some cursor }
          (payloadAddress bytes) previous <;>
          rfl

variable [StringText]

/-- The bytes of the reference encoder: the keys are in order, and nothing is between the tokens. -/
def referenceJson (v : Value) : List Char := render v.sorted

/-- Two values have the bytes of the reference encoder, which are a text of both, and give the same
addresses to the objects and the journal entries they are put in. -/
structure EncodesAlike (v w : Value) : Prop where
  left : canonicalJson v = .ok (referenceJson v)
  right : canonicalJson w = .ok (referenceJson v)
  spells : Parses (v.depth + 1) (referenceJson v) v.sorted ∧
    Parses (w.depth + 1) (referenceJson v) w.sorted
  objects : ∀ m m', v = .object m → w = .object m' → ∀ kind schema links,
    Object.contentAddress ⟨kind, schema, m, links⟩ = Object.contentAddress ⟨kind, schema, m', links⟩
  entries : ∀ m m', v = .object m → w = .object m' → ∀ (event : Event) cursor previous,
    (JournalEntry.new { event with payload := m } cursor previous).map JournalEntry.addresses
      = (JournalEntry.new { event with payload := m' } cursor previous).map JournalEntry.addresses

variable [LawfulStringText]

/-- **Canonical bytes are unique.** Texts of one value have the bytes of the reference encoder, and
the same addresses, whatever the limits of nesting under which they were read. -/
theorem encodesAlike_of_same {d e : ℕ} {text text' : List Char} {v w : Value}
    (hv : Parses d text v) (hw : Parses e text' w) (haccepted : v.all Value.isAccepted = true)
    (haccepted' : w.all Value.isAccepted = true) (hsame : v.same w = true) : EncodesAlike v w := by
  rw [Value.same, decide_eq_true_eq] at hsame
  have hcanonical : v.canonical = w.canonical := by
    rw [canonical_of_accepted haccepted, canonical_of_accepted haccepted', hsame]
  have hreference : referenceJson v = render w.sorted := by rw [referenceJson, hsame]
  refine ⟨canonicalJson_of_accepted haccepted, ?_, ⟨?_, ?_⟩, ?_, ?_⟩
  · rw [hreference, canonicalJson_of_accepted haccepted']
  · exact parses_sorted (integral_of_accepted haccepted) hv.keyed (Nat.lt_succ_self _)
  · rw [hreference]
    exact parses_sorted (integral_of_accepted haccepted') hw.keyed (Nat.lt_succ_self _)
  · rintro m m' rfl rfl
    exact contentAddress_congr hcanonical
  · rintro m m' rfl rfl
    exact addresses_congr hcanonical

end

namespace Sample

/-- Two texts of one object, which differ in blanks, in the order of the keys and in the sign of
zero. -/
theorem respelled_encodesAlike :
    ∃ v w : Value, Parses recursionLimit "\x7b\"a\":-0, \"b\":[]\x7d".toList v ∧
      Parses recursionLimit "\x7b\"b\":[ ],\"a\":0\x7d".toList w ∧
      @EncodesAlike platform stringText v w := by
  have hv : Parses recursionLimit "\x7b\"a\":-0, \"b\":[]\x7d".toList
      (.object [("a", .number (.int 0)), ("b", .array [])]) := ⟨20, by decide +kernel⟩
  have hw : Parses recursionLimit "\x7b\"b\":[ ],\"a\":0\x7d".toList
      (.object [("b", .array []), ("a", .number (.int 0))]) := ⟨20, by decide +kernel⟩
  exact ⟨_, _, hv, hw, @encodesAlike_of_same platform _ _ _ _ _ _ _ _ hv hw (by decide) (by decide)
    (by decide +kernel)⟩

end Sample

end Zeta
