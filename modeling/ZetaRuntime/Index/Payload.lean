import ZetaRuntime.Store.Append

/-!
# Reading lifecycle payloads

A fact is projected twice in its life: once from the payload its writer passed in, and again, in
every rebuild, from the payload that was read back from the journal. The two differ in key order
and in how floats are spelled. Each reader below comes with the lemma that it does not notice the
difference: it returns the same value, or for an object the canonical form of it. With these lemmas
no later proof has to look inside a payload.
-/

namespace Zeta

open Outcome

variable {event : Event} {texts : List String} {a b : Map} {field value : String}

/-- A lifecycle event is missing or mistypes one field. -/
def invalidLifecycle (event : Event) (field : String) : DispatchError :=
  .invalidLifecycleEvent event.id field

/-! ### Decoding one field -/

section Decode

variable (error : DispatchError)

/-- A text, which may have to be non-empty. -/
def decodeString (allowEmpty : Bool) : Option Value → Except DispatchError String
  | some (.string value) => if !allowEmpty && value = "" then .error error else .ok value
  | _ => .error error

/-- An object. -/
def decodeObject : Option Value → Except DispatchError Map
  | some (.object value) => .ok value
  | _ => .error error

/-- A text, null or nothing. -/
def decodeOptionalString : Option Value → Except DispatchError (Option String)
  | some (.string value) => .ok (some value)
  | some .null => .ok none
  | some _ => .error error
  | none => .ok none

/-- An object, null or nothing. -/
def decodeOptionalObject : Option Value → Except DispatchError (Option Map)
  | some (.object value) => .ok (some value)
  | some .null => .ok none
  | none => .ok none
  | some _ => .error error

/-- A signed integer, null or nothing. -/
def decodeOptionalI64 : Option Value → Except DispatchError (Option Int)
  | some (.number value) => some <$> require value.asI64 error
  | some .null => .ok none
  | none => .ok none
  | some _ => .error error

/-- The largest unsigned 32-bit integer. -/
def u32Max : ℕ := 2 ^ 32 - 1

/-- A positive number of 32 bits, from a signed one. -/
def positiveU32 : Option Int → Except DispatchError (Option ℕ)
  | some value => do
    ensure (0 ≤ value ∧ value ≤ u32Max) error
    ensure (value ≠ 0) error
    return some value.toNat
  | none => .ok none

/-- A positive number of 32 bits. -/
def decodePositiveU32 : Option Value → Except DispatchError ℕ
  | some (.number number) => do
    let value ← require number.asU64 error
    ensure (value ≠ 0 ∧ value ≤ u32Max) error
    return value
  | _ => .error error

/-- A number of 64 bits. -/
def decodeU64 : Option Value → Except DispatchError ℕ
  | some (.number number) => require number.asU64 error
  | _ => .error error

/-- Non-empty, pairwise distinct texts. -/
def distinctStrings : List Value → List String → Except DispatchError (List String)
  | [], _ => .ok []
  | .string value :: values, seen => do
    ensure (value ≠ "" ∧ value ∉ seen) error
    let rest ← distinctStrings values (value :: seen)
    return value :: rest
  | _ :: _, _ => .error error

/-- An array of non-empty, pairwise distinct texts, or nothing. -/
def decodeOptionalStringArray : Option Value → Except DispatchError (Option (List String))
  | none => .ok none
  | some (.array values) => some <$> distinctStrings error values []
  | some _ => .error error

end Decode

/-! ### Reading one field of an event -/

/-- A text, which may have to be non-empty. -/
def requiredPayloadString (event : Event) (field : String) (allowEmpty : Bool) :
    Except DispatchError String :=
  decodeString (invalidLifecycle event field) allowEmpty (event.payload.get field)

/-- A non-empty identity. -/
def requiredRuntimeId (event : Event) (field : String) : Except DispatchError String :=
  requiredPayloadString event field false

/-- An object. -/
def requiredPayloadObject (event : Event) (field : String) : Except DispatchError Map :=
  decodeObject (invalidLifecycle event field) (event.payload.get field)

/-- A text, null or nothing. -/
def optionalPayloadString (event : Event) (field : String) :
    Except DispatchError (Option String) :=
  decodeOptionalString (invalidLifecycle event field) (event.payload.get field)

/-- An object, null or nothing. -/
def optionalPayloadObject (event : Event) (field : String) : Except DispatchError (Option Map) :=
  decodeOptionalObject (invalidLifecycle event field) (event.payload.get field)

/-- A signed integer, null or nothing. -/
def optionalPayloadI64 (event : Event) (field : String) : Except DispatchError (Option Int) :=
  decodeOptionalI64 (invalidLifecycle event field) (event.payload.get field)

/-- A positive number of 32 bits, null or nothing. -/
def optionalPayloadU32 (event : Event) (field : String) : Except DispatchError (Option ℕ) := do
  let value ← optionalPayloadI64 event field
  positiveU32 (invalidLifecycle event field) value

/-- A positive number of 32 bits. -/
def requiredPositiveU32 (event : Event) (field : String) : Except DispatchError ℕ :=
  decodePositiveU32 (invalidLifecycle event field) (event.payload.get field)

/-- A number of 64 bits. -/
def requiredNonnegativeU64 (event : Event) (field : String) : Except DispatchError ℕ :=
  decodeU64 (invalidLifecycle event field) (event.payload.get field)

/-- An array of non-empty, pairwise distinct texts, or nothing. -/
def optionalPayloadStringArray (event : Event) (field : String) :
    Except DispatchError (Option (List String)) :=
  decodeOptionalStringArray (invalidLifecycle event field) (event.payload.get field)

/-- An optional identity is not empty when it is present. -/
def validateOptionalRuntimeId (event : Event) (field : String) (value : Option String) :
    Except DispatchError Unit :=
  ensure (value ≠ some "") (invalidLifecycle event field)

/-- The part of an event type after its last dot. -/
def lastSegment (eventType : String) : String :=
  String.ofList (eventType.toList.reverse.takeWhile (· ≠ '.')).reverse

/-! ### What a reader found -/

/-- The text in a field, if there is one. -/
def Map.text (m : Map) (field : String) : Option String :=
  match m.get field with
  | some (.string value) => some value
  | _ => none

theorem requiredPayloadString_ok_iff {allowEmpty : Bool} :
    requiredPayloadString event field allowEmpty = .ok value ↔
      event.payload.text field = some value ∧ (allowEmpty = true ∨ value ≠ "") := by
  unfold requiredPayloadString decodeString Map.text
  cases event.payload.get field with
  | none => simp
  | some v =>
    cases v with
    | string s => by_cases hs : s = value <;> cases allowEmpty <;> by_cases he : s = "" <;> simp_all
    | null | bool | number | array | object => simp

theorem requiredRuntimeId_ok_iff :
    requiredRuntimeId event field = .ok value ↔
      event.payload.text field = some value ∧ value ≠ "" := by
  simp [requiredRuntimeId, requiredPayloadString_ok_iff]

theorem optionalPayloadString_eq_text {value : Option String}
    (h : optionalPayloadString event field = .ok value) : value = event.payload.text field := by
  unfold optionalPayloadString decodeOptionalString at h
  unfold Map.text
  cases hv : event.payload.get field with
  | none => simpa [hv] using h.symm
  | some v => cases v <;> simp_all

theorem distinctStrings_ok {error : DispatchError} {values : List Value} {seen : List String}
    (h : distinctStrings error values seen = .ok texts) :
    values = texts.map Value.string ∧ texts.Nodup ∧ ∀ text ∈ texts, text ∉ seen := by
  induction values generalizing seen texts with
  | nil =>
    cases h
    simp
  | cons value values ih =>
    cases value with
    | string text =>
      simp only [distinctStrings, ok_iff] at h
      obtain ⟨_, ⟨-, hnew⟩, rest, hrest, rfl⟩ := h
      obtain ⟨rfl, hnodup, hseen⟩ := ih hrest
      refine ⟨rfl, List.nodup_cons.mpr ⟨fun htext => hseen text htext (.head _), hnodup⟩,
        ?_⟩
      refine List.forall_mem_cons.mpr ⟨hnew, fun other hother hmem => ?_⟩
      exact hseen other hother (.tail _ hmem)
    | null | bool | number | array | object => cases h

theorem optionalPayloadStringArray_some
    (h : optionalPayloadStringArray event field = .ok (some texts)) :
    event.payload.get field = some (.array (texts.map .string)) ∧ texts.Nodup := by
  unfold optionalPayloadStringArray at h
  cases hget : event.payload.get field with
  | none => simp [hget, decodeOptionalStringArray] at h
  | some value =>
    cases value with
    | array values =>
      simp only [hget, decodeOptionalStringArray, map_ok_iff, Option.some.injEq] at h
      obtain ⟨_, hvalues, rfl⟩ := h
      obtain ⟨rfl, hnodup, -⟩ := distinctStrings_ok hvalues
      exact ⟨rfl, hnodup⟩
    | null | bool | number | string | object => simp [hget, decodeOptionalStringArray] at h

/-! ### The same payload, whatever the key order -/

theorem get_sortedFields (fs : Map) (key : String) :
    Map.get (Value.sortedFields fs) key = (Map.get fs key).map Value.sorted := by
  induction fs with
  | nil => rfl
  | cons field fs ih =>
    obtain ⟨k, v⟩ := field
    by_cases hk : k = key <;> simp [Value.sortedFields, hk, ih]

/-- Sorting keys leaves texts alone, and turns nothing else into one. -/
theorem Map.text_eq_of_sorted
    (h : (a.get field).map Value.sorted = (b.get field).map Value.sorted) :
    a.text field = b.text field := by
  unfold Map.text
  cases ha : a.get field with
  | none =>
    cases hb : b.get field with
    | none => rfl
    | some w => simp [ha, hb] at h
  | some v =>
    cases hb : b.get field with
    | none => simp [ha, hb] at h
    | some w =>
      rw [ha, hb] at h
      cases v <;> cases w <;> simp_all [Value.sorted]

/-- Payloads that are equal as maps have the same texts. -/
theorem Map.text_eq_of_same (h : Map.same a b = true) (field : String) :
    a.text field = b.text field := by
  refine Map.text_eq_of_sorted ?_
  simp only [Map.same, Value.same, Value.sorted, decide_eq_true_eq, Value.object.injEq] at h
  have hget := congrArg (Map.get · field) h
  simpa only [Map.get_sortKeys, get_sortedFields] using hget

/-! ### Payloads that are stored as they are -/

section Plain

variable [FloatText]

/-- A value that neither sorting nor encoding changes. -/
structure Value.Plain (v : Value) : Prop where
  sorted : v.sorted = v
  canonical : v.canonical = .ok v

theorem Value.plain_string (text : String) : (Value.string text).Plain := ⟨rfl, rfl⟩

theorem Value.plain_texts (texts : List String) : (Value.array (texts.map .string)).Plain := by
  induction texts with
  | nil => exact ⟨rfl, rfl⟩
  | cons text texts ih =>
    have hsorted := ih.sorted
    have hcanonical := ih.canonical
    simp only [Value.sorted, Value.array.injEq] at hsorted
    simp only [Value.canonical, ok_iff, Value.array.injEq] at hcanonical
    obtain ⟨_, hcanonical, rfl⟩ := hcanonical
    constructor
    · simp [Value.sorted, Value.sortedList, hsorted]
    · simp [Value.canonical, Value.canonicalList, hcanonical]

variable {m m' : Map}

omit [FloatText] in
theorem sortedFields_eq_map (fs : Map) :
    Value.sortedFields fs = fs.map fun p => (p.1, p.2.sorted) := by
  induction fs with
  | nil => rfl
  | cons field fs ih => rw [Value.sortedFields, List.map_cons, ih]

theorem sortedFields_of_plain (h : ∀ p ∈ m, p.2.Plain) : Value.sortedFields m = m := by
  rw [sortedFields_eq_map]
  conv_rhs => rw [← List.map_id m]
  exact List.map_congr_left fun p hp => by rw [(h p hp).sorted, id]

/-- A plain payload is stored with its keys in order. -/
theorem canonicalPayload_of_plain (h : ∀ p ∈ m, p.2.Plain) :
    canonicalPayload m = .ok (Map.sortKeys m) := by
  refine canonicalPayload_eq_ok_iff.mpr (List.map_congr_left fun p hp => ?_)
  rw [(h p ((Map.sortKeys_perm m).mem_iff.mp hp)).canonical]

/-- Plain payloads are the same if they are after sorting. -/
theorem Map.same_iff_of_plain (h : ∀ p ∈ m, p.2.Plain) (h' : ∀ p ∈ m', p.2.Plain) :
    Map.same m m' = true ↔ Map.sortKeys m = Map.sortKeys m' := by
  simp [Map.same, Value.same, Value.sorted, sortedFields_of_plain h, sortedFields_of_plain h']

end Plain

/-! ### Reading back -/

section ReadsBack

variable [FloatText]

/-- The form in which a journaled event is read back. -/
def ReadsBack (event event' : Event) : Prop :=
  ∃ bytes, canonicalPayload event.payload = .ok bytes ∧ event' = { event with payload := bytes }

namespace ReadsBack

variable {event event' : Event}

section

variable (h : ReadsBack event event')
include h

theorem id_eq : event'.id = event.id := by
  obtain ⟨bytes, -, rfl⟩ := h; rfl

theorem eventType_eq : event'.eventType = event.eventType := by
  obtain ⟨bytes, -, rfl⟩ := h; rfl

theorem source_eq : event'.source = event.source := by
  obtain ⟨bytes, -, rfl⟩ := h; rfl

theorem sessionId_eq : event'.sessionId = event.sessionId := by
  obtain ⟨bytes, -, rfl⟩ := h; rfl

theorem runId_eq : event'.runId = event.runId := by
  obtain ⟨bytes, -, rfl⟩ := h; rfl

theorem causedBy_eq : event'.causedBy = event.causedBy := by
  obtain ⟨bytes, -, rfl⟩ := h; rfl

theorem idempotencyKey_eq : event'.idempotencyKey = event.idempotencyKey := by
  obtain ⟨bytes, -, rfl⟩ := h; rfl

theorem timestampMs_eq : event'.timestampMs = event.timestampMs := by
  obtain ⟨bytes, -, rfl⟩ := h; rfl

theorem cursor_eq : event'.cursor = event.cursor := by
  obtain ⟨bytes, -, rfl⟩ := h; rfl

theorem invalidLifecycle_eq (field : String) :
    invalidLifecycle event' field = invalidLifecycle event field := by
  simp [invalidLifecycle, h.id_eq]

/-- A field is read back as its canonical form. -/
theorem get (field : String) :
    match event.payload.get field with
    | none => event'.payload.get field = none
    | some v => ∃ w, Value.canonical v = .ok w ∧ event'.payload.get field = some w := by
  obtain ⟨bytes, hbytes, rfl⟩ := h
  exact Map.get_canonical hbytes field

/-- A reader that does not look at the spelling of numbers, nor inside arrays and objects, cannot
tell the two forms apart. -/
theorem congr {α : Type} (field : String) (read : Option Value → α)
    (hnumber : ∀ n m, pythonNumber n = .ok m → read (some (.number m)) = read (some (.number n)))
    (harray : ∀ vs ws, Value.canonicalList vs = .ok ws →
      read (some (.array ws)) = read (some (.array vs)))
    (hobject : ∀ m m', canonicalPayload m = .ok m' →
      read (some (.object m')) = read (some (.object m))) :
    read (event'.payload.get field) = read (event.payload.get field) := by
  have hget := h.get field
  cases hv : event.payload.get field with
  | none => rw [hv] at hget; rw [hget]
  | some v =>
    rw [hv] at hget
    obtain ⟨w, hw, hget⟩ := hget
    rw [hget]
    have hkind := canonical_ok_cases hw
    cases v with
    | null | bool | string => rw [hkind]
    | number n => obtain ⟨m, hm, rfl⟩ := hkind; exact hnumber n m hm
    | array vs => obtain ⟨ws, hws, rfl⟩ := hkind; exact harray vs ws hws
    | object fs => obtain ⟨m, hm, rfl⟩ := hkind; exact hobject fs m hm

theorem text_eq (field : String) : event'.payload.text field = event.payload.text field :=
  h.congr field (fun o => match o with | some (.string value) => some value | _ => none)
    (fun _ _ _ => rfl) (fun _ _ _ => rfl) (fun _ _ _ => rfl)

theorem requiredPayloadString_eq (field : String) (allowEmpty : Bool) :
    requiredPayloadString event' field allowEmpty =
      requiredPayloadString event field allowEmpty := by
  rw [requiredPayloadString, h.invalidLifecycle_eq]
  exact h.congr field (decodeString _ allowEmpty) (fun _ _ _ => rfl) (fun _ _ _ => rfl)
    (fun _ _ _ => rfl)

theorem requiredRuntimeId_eq (field : String) :
    requiredRuntimeId event' field = requiredRuntimeId event field :=
  h.requiredPayloadString_eq field false

theorem optionalPayloadString_eq (field : String) :
    optionalPayloadString event' field = optionalPayloadString event field := by
  rw [optionalPayloadString, h.invalidLifecycle_eq]
  exact h.congr field (decodeOptionalString _) (fun _ _ _ => rfl) (fun _ _ _ => rfl)
    (fun _ _ _ => rfl)

theorem optionalPayloadI64_eq (field : String) :
    optionalPayloadI64 event' field = optionalPayloadI64 event field := by
  rw [optionalPayloadI64, h.invalidLifecycle_eq]
  exact h.congr field (decodeOptionalI64 _)
    (fun _ _ hm => by simp only [decodeOptionalI64, asI64_pythonNumber hm])
    (fun _ _ _ => rfl) (fun _ _ _ => rfl)

theorem optionalPayloadU32_eq (field : String) :
    optionalPayloadU32 event' field = optionalPayloadU32 event field := by
  simp only [optionalPayloadU32, h.optionalPayloadI64_eq, h.invalidLifecycle_eq]

theorem requiredPositiveU32_eq (field : String) :
    requiredPositiveU32 event' field = requiredPositiveU32 event field := by
  rw [requiredPositiveU32, h.invalidLifecycle_eq]
  exact h.congr field (decodePositiveU32 _)
    (fun _ _ hm => by simp only [decodePositiveU32, asU64_pythonNumber hm])
    (fun _ _ _ => rfl) (fun _ _ _ => rfl)

theorem requiredNonnegativeU64_eq (field : String) :
    requiredNonnegativeU64 event' field = requiredNonnegativeU64 event field := by
  rw [requiredNonnegativeU64, h.invalidLifecycle_eq]
  exact h.congr field (decodeU64 _)
    (fun _ _ hm => by simp only [decodeU64, asU64_pythonNumber hm])
    (fun _ _ _ => rfl) (fun _ _ _ => rfl)

end

/-- Texts are their own canonical forms, and anything else is rejected in both forms. -/
theorem distinctStrings_canonicalList (error : DispatchError) {vs ws : List Value}
    (hws : Value.canonicalList vs = .ok ws) (seen : List String) :
    distinctStrings error ws seen = distinctStrings error vs seen := by
  induction vs generalizing ws seen with
  | nil => cases hws; rfl
  | cons v vs ih =>
    simp only [Value.canonicalList, ok_iff] at hws
    obtain ⟨w, hw, ws, hws, rfl⟩ := hws
    have hkind := canonical_ok_cases hw
    cases v with
    | string s =>
      obtain rfl : w = .string s := hkind
      simp only [distinctStrings, ih hws]
    | null => obtain rfl : w = .null := hkind; rfl
    | bool b => obtain rfl : w = .bool b := hkind; rfl
    | number | array | object => obtain ⟨m, -, rfl⟩ := hkind; rfl

theorem optionalPayloadStringArray_eq (h : ReadsBack event event') (field : String) :
    optionalPayloadStringArray event' field = optionalPayloadStringArray event field := by
  rw [optionalPayloadStringArray, h.invalidLifecycle_eq]
  exact h.congr field (decodeOptionalStringArray _) (fun _ _ _ => rfl)
    (fun _ _ hws => by simp only [decodeOptionalStringArray, distinctStrings_canonicalList _ hws])
    (fun _ _ _ => rfl)

theorem validateOptionalRuntimeId_eq (h : ReadsBack event event') (field : String)
    (value : Option String) :
    validateOptionalRuntimeId event' field value = validateOptionalRuntimeId event field value := by
  simp only [validateOptionalRuntimeId, h.invalidLifecycle_eq]

/-- An object is read back as its canonical form. -/
theorem requiredPayloadObject_ok (h : ReadsBack event event') {m : Map}
    (hm : requiredPayloadObject event field = .ok m) :
    ∃ m', canonicalPayload m = .ok m' ∧ requiredPayloadObject event' field = .ok m' := by
  have hget := h.get field
  unfold requiredPayloadObject decodeObject at hm ⊢
  cases hv : event.payload.get field with
  | none => rw [hv] at hm; cases hm
  | some v =>
    rw [hv] at hget hm
    obtain ⟨w, hw, hget⟩ := hget
    have hkind := canonical_ok_cases hw
    cases v with
    | object fs =>
      cases hm
      obtain ⟨m', hm', rfl⟩ := hkind
      exact ⟨m', hm', by rw [hget]⟩
    | null | bool | string | number | array => cases hm

theorem optionalPayloadObject_ok (h : ReadsBack event event') {m : Option Map}
    (hm : optionalPayloadObject event field = .ok m) :
    ∃ m', optionalPayloadObject event' field = .ok m' ∧
      Option.Rel (fun a b => canonicalPayload a = .ok b) m m' := by
  have hget := h.get field
  unfold optionalPayloadObject decodeOptionalObject at hm ⊢
  cases hv : event.payload.get field with
  | none => rw [hv] at hget hm; cases hm; exact ⟨none, by rw [hget], .none⟩
  | some v =>
    rw [hv] at hget hm
    obtain ⟨w, hw, hget⟩ := hget
    have hkind := canonical_ok_cases hw
    cases v with
    | null =>
      cases hm
      obtain rfl : w = .null := hkind
      exact ⟨none, by rw [hget], .none⟩
    | object fs =>
      cases hm
      obtain ⟨m', hm', rfl⟩ := hkind
      exact ⟨some m', by rw [hget], .some hm'⟩
    | bool | string | number | array => cases hm

end ReadsBack

end ReadsBack

end Zeta
