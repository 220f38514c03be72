import ZetaRuntime.Ipc.Frame
import ZetaRuntime.Json.ReadBack

/-!
# Messages written and read back

A message that was read from a value is written again, as a value or as a line. The four shapes of a
message come back as they are, and so does every id: an integer is read as an unsigned number if it
can be, so a signed id is negative and is not taken for an unsigned one when it is read back.

The derived reader of an error object is a parameter (`LineText.errorObject`); `ErrorBodies` says
what it is taken to do. That no string is written with a newline inside is a property of the library
that escapes strings (`SingleLine`).
-/

namespace Zeta.Ipc

open Outcome

variable {fields : Map} {m : Message} {id : RequestId} {key method : String} {value : Value}

/-! ### Writing -/

def RequestId.toValue : RequestId → Value
  | .string text => .string text
  | .signed number => .number (.int number)
  | .unsigned number => .number (.int number)

/-- The fields of an error object. -/
def ErrorObject.toMap (error : ErrorObject) : Map :=
  ("code", .number (.int error.code)) :: ("message", .string error.message) ::
    match error.data with
    | some data => [("data", data)]
    | none => []

/-- The fields of a message after the version. -/
def Message.toFields : Message → Map
  | .request ⟨id, method, params⟩ =>
    [("id", id.toValue), ("method", .string method), ("params", .object params)]
  | .notification ⟨method, params⟩ => [("method", .string method), ("params", .object params)]
  | .success ⟨id, result⟩ => [("id", id.toValue), ("result", result)]
  | .error ⟨id, body⟩ =>
    [("id", (id.map RequestId.toValue).getD .null), ("error", .object body.toMap)]

def Message.toValue (message : Message) :
    Value := .object (("jsonrpc", .string "2.0") :: message.toFields)

section

variable [StringText]

def Message.toJson (message : Message) : List Char := render message.toValue

/-- What is written to the stream for a message. -/
def writeMessage (message : Message) : List Char := message.toJson ++ ['\n']

end

/-! ### What is taken from the libraries -/

/-- Whether a number is an `i64`. -/
def IsI64 (n : Int) : Prop := -2 ^ 63 ≤ n ∧ n < 2 ^ 63

/-- The reader of error objects reads back what is written, a null detail apart, reads no other
codes and details than an error object can have, and takes the detail from what it reads. -/
structure ErrorBodies [LineText] : Prop where
  read_back : ∀ error : ErrorObject, IsI64 error.code →
    LineText.errorObject (.object error.toMap)
      = .ok { error with data := error.data.filter (· ≠ .null) }
  read : ∀ value error, LineText.errorObject value = .ok error →
    IsI64 error.code ∧ error.data ≠ some .null
  /-- The detail is a part of what was read. -/
  part : ∀ value error data, LineText.errorObject value = .ok error → error.data = some data →
    ∀ p, value.all p = true → data.all p = true

/-- A string is written without a newline. -/
def SingleLine [StringText] : Prop := ∀ text, '\n' ∉ StringText.escape text

/-- A character of a number token. -/
def isNumberChar (c : Char) : Bool :=
  c.isDigit || c = '.' || c = 'e' || c = 'E' || c = '+' || c = '-'

/-- Whether a number that is no integer is spelled like a number. -/
def hasNumberChars : Value → Bool
  | .number (.float token) => token.toList.all isNumberChar
  | _ => true

/-! ### Ids -/

/-- What is read as an id, and as which. -/
theorem RequestId.parse_ok_cases (h : RequestId.parse value = .ok id) :
    (∃ text, value = .string text ∧ id = .string text) ∨
      (∃ n : ℕ, n < 2 ^ 64 ∧ value = .number (.int n) ∧ id = .unsigned n) ∨
      ∃ n : Int, -2 ^ 63 ≤ n ∧ n < 0 ∧ value = .number (.int n) ∧ id = .signed n := by
  cases value with
  | string text =>
    cases h
    exact .inl ⟨text, rfl, rfl⟩
  | number number =>
    cases number with
    | int n =>
      simp only [RequestId.parse, Number.asU64, Number.asI64] at h
      by_cases hn : 0 ≤ n ∧ n < 2 ^ 64
      · rw [if_pos hn] at h
        cases h
        exact .inr (.inl ⟨n.toNat, by omega, by rw [Int.toNat_of_nonneg hn.1], rfl⟩)
      · rw [if_neg hn] at h
        by_cases hs : -2 ^ 63 ≤ n ∧ n < 2 ^ 63
        · rw [if_pos hs] at h
          cases h
          exact .inr (.inr ⟨n, hs.1, by omega, rfl, rfl⟩)
        · rw [if_neg hs] at h
          cases h
    | float token => cases h
  | null => cases h
  | bool b => cases h
  | array values => cases h
  | object fields => cases h

/-- **An id is read back.** The two kinds of integers overlap nowhere: only a negative id is signed.
-/
theorem RequestId.parse_toValue (h : RequestId.parse value = .ok id) :
    RequestId.parse id.toValue = .ok id := by
  rcases RequestId.parse_ok_cases h with ⟨text, rfl, rfl⟩ | ⟨n, hn, rfl, rfl⟩
    | ⟨n, hlow, hneg, rfl, rfl⟩
  · rfl
  · exact h
  · exact h

theorem RequestId.toValue_ne_null (id : RequestId) : id.toValue ≠ .null := by
  cases id <;> simp [RequestId.toValue]

/-! ### Lines -/

theorem newline_notMem_writeString [StringText] (hline : SingleLine) (text : String) :
    '\n' ∉ writeString text := by
  simpa [writeString] using hline text

theorem newline_notMem_number {n : Number} (h : hasNumberChars (.number n) = true) :
    '\n' ∉ n.text := by
  cases n with
  | int n =>
    have hdigits : '\n' ∉ Nat.toDigits 10 n.natAbs := by
      intro hmem
      cases Nat.isDigit_of_mem_toDigits (by decide) (by decide) hmem
    rw [text_int]
    split
    · simpa using hdigits
    · exact hdigits
  | float token =>
    intro hmem
    have hchar := List.all_eq_true.mp h _ hmem
    simp [isNumberChar] at hchar

section

variable [StringText]

/-- Fields whose texts have no newline are joined without one. -/
theorem newline_notMem_joinTail (hline : SingleLine) {fields : List (String × List Char)}
    (h : ∀ field ∈ fields, '\n' ∉ field.2) : '\n' ∉ joinTail fields := by
  induction fields with
  | nil => simp [joinTail]
  | cons field fields ih =>
    have hfirst := h field (.head _)
    have hrest := ih fun field' hmem => h field' (.tail _ hmem)
    simp [joinTail, newline_notMem_writeString hline, hfirst, hrest]

theorem newline_notMem_joinFields (hline : SingleLine) {fields : List (String × List Char)}
    (h : ∀ field ∈ fields, '\n' ∉ field.2) : '\n' ∉ joinFields fields := by
  cases fields with
  | nil => simp [joinFields]
  | cons field fields =>
    have hfirst := h field (.head _)
    have hrest := newline_notMem_joinTail hline fun field' hmem =>
      h field' (.tail _ hmem)
    simp [joinFields, newline_notMem_writeString hline, hfirst, hrest]

mutual

/-- **A value is written on one line.** -/
theorem newline_notMem_render (hline : SingleLine) :
    ∀ value : Value, value.all hasNumberChars = true → '\n' ∉ render value
  | .null, _ => by simp [render]
  | .bool true, _ => by simp [render]
  | .bool false, _ => by simp [render]
  | .number n, h => newline_notMem_number h
  | .string s, _ => newline_notMem_writeString hline s
  | .array values, h => by
    simp only [Value.all, Bool.and_eq_true] at h
    have hinner := newline_notMem_renderElements hline values h.2
    simpa [render] using hinner
  | .object fields, h => by
    simp only [Value.all, Bool.and_eq_true] at h
    have hinner := newline_notMem_joinFields hline (newline_notMem_renderFields hline fields h.2)
    simpa [render] using hinner

theorem newline_notMem_renderElements (hline : SingleLine) :
    ∀ values : List Value, Value.allList hasNumberChars values = true → '\n' ∉ renderElements values
  | [], _ => by simp [renderElements]
  | value :: values, h => by
    simp only [Value.allList, Bool.and_eq_true] at h
    have hfirst := newline_notMem_render hline value h.1
    have hrest := newline_notMem_renderTail hline values h.2
    simp [renderElements, hfirst, hrest]

theorem newline_notMem_renderTail (hline : SingleLine) :
    ∀ values : List Value, Value.allList hasNumberChars values = true → '\n' ∉ renderTail values
  | [], _ => by simp [renderTail]
  | value :: values, h => by
    simp only [Value.allList, Bool.and_eq_true] at h
    have hfirst := newline_notMem_render hline value h.1
    have hrest := newline_notMem_renderTail hline values h.2
    simp [renderTail, hfirst, hrest]

theorem newline_notMem_renderFields (hline : SingleLine) :
    ∀ fields : List (String × Value), Value.allFields hasNumberChars fields = true →
      ∀ field ∈ renderFields fields, '\n' ∉ field.2
  | [], _ => by simp [renderFields]
  | (key, value) :: fields, h => by
    simp only [Value.allFields, Bool.and_eq_true] at h
    intro field hmem
    rw [renderFields, List.mem_cons] at hmem
    rcases hmem with rfl | hmem
    · exact newline_notMem_render hline value h.1
    · exact newline_notMem_renderFields hline fields h.2 field hmem

end

end

/-! ### Messages -/

section

variable [LineText]

theorem parseValue_request_iff (hmethod : method ≠ "") (params : Map) :
    Message.parseValue (Message.request ⟨id, method, params⟩).toValue =
      .ok (.request ⟨id, method, params⟩) ↔
      RequestId.parse id.toValue = .ok id := by
  simp [Message.parseValue, Message.toValue, Message.toFields, Message.parseFields, parseCall,
    parseParams, callWithId, Value.asStr, hmethod]

theorem parseValue_notification (hmethod : method ≠ "") (params : Map) :
    Message.parseValue (Message.notification ⟨method, params⟩).toValue
      = .ok (.notification ⟨method, params⟩) := by
  simp [Message.parseValue, Message.toValue, Message.toFields, Message.parseFields, parseCall,
    parseParams, callWithId, Value.asStr, hmethod]

theorem parseValue_success_iff {result : Value} :
    Message.parseValue (Message.success ⟨id, result⟩).toValue = .ok (.success ⟨id, result⟩) ↔
      RequestId.parse id.toValue = .ok id := by
  simp [Message.parseValue, Message.toValue, Message.toFields, Message.parseFields, parseSuccess,
    Value.asStr]

omit [LineText] in
theorem parseErrorId_toValue_iff :
    parseErrorId id.toValue = .ok (some id) ↔ RequestId.parse id.toValue = .ok id := by
  unfold parseErrorId
  split
  · next hnull => exact absurd hnull id.toValue_ne_null
  · cases hid : RequestId.parse id.toValue with
    | ok id' => simp [Functor.map, Except.map]
    | error e => simp [Functor.map, Except.map]

/-- An error response is read back with its id, and with its error but for a null detail. -/
theorem parseValue_error_iff (hbodies : ErrorBodies) {id : RequestId} {body : ErrorObject}
    (hcode : IsI64 body.code) :
    Message.parseValue (Message.error ⟨some id, body⟩).toValue
        = .ok (.error ⟨some id, { body with data := body.data.filter (· ≠ .null) }⟩) ↔
      RequestId.parse id.toValue = .ok id := by
  simp [Message.parseValue, Message.toValue, Message.toFields, Message.parseFields,
    parseErrorResponse, Value.asStr, hbodies.read_back body hcode, parseErrorId_toValue_iff,
    Except.mapError]

theorem parseValue_error_null (hbodies : ErrorBodies) {body : ErrorObject}
    (hcode : IsI64 body.code) :
    Message.parseValue (Message.error ⟨none, body⟩).toValue
      = .ok (.error ⟨none, { body with data := body.data.filter (· ≠ .null) }⟩) := by
  simp [Message.parseValue, Message.toValue, Message.toFields, Message.parseFields,
    parseErrorResponse, Value.asStr, hbodies.read_back body hcode, parseErrorId, Except.mapError]

section

omit [LineText]

theorem mem_of_get (h : fields.get key = some value) : (key, value) ∈ fields := by
  induction fields with
  | nil => cases h
  | cons field fields ih =>
    rw [Map.get_cons] at h
    split at h
    · next hkey =>
      rw [← hkey, ← Option.some.inj h]
      exact .head _
    · exact .tail _ (ih h)

/-- What holds of everything in an object holds of everything in a field. -/
theorem all_of_get {p : Value → Bool} (h : Value.allFields p fields = true)
    (hget : fields.get key = some value) : value.all p = true :=
  allFields_iff.mp h _ (mem_of_get hget)

/-- A message and what it was read from: its shape, its id, and that its contents are parts of it.
-/
inductive Message.ReadFrom (fields : Map) : Message → Prop
  | notification {method : String} {params : Map} (hid : fields.get "id" = none)
    (hmethod : method ≠ "")
      (hparams : ∀ p, Value.allFields p fields = true → Value.allFields p params = true) :
      Message.ReadFrom fields (.notification ⟨method, params⟩)
  | request {value : Value} {id : RequestId} {method : String} {params : Map}
      (hid : fields.get "id" = some value) (hparse : RequestId.parse value = .ok id)
      (hmethod : method ≠ "")
      (hparams : ∀ p, Value.allFields p fields = true → Value.allFields p params = true) :
      Message.ReadFrom fields (.request ⟨id, method, params⟩)
  | success {value result : Value} {id : RequestId} (hid : fields.get "id" = some value)
      (hparse : RequestId.parse value = .ok id) (hresult : fields.get "result" = some result) :
      Message.ReadFrom fields (.success ⟨id, result⟩)
  | error {value body : Value} {id : Option RequestId} {object : ErrorObject}
      (hid : fields.get "id" = some value) (hparse : parseErrorId value = .ok id)
      (hbody : fields.get "error" = some body) (hobject : LineText.errorObject body = .ok object) :
      Message.ReadFrom fields (.error ⟨id, object⟩)

theorem parseParams_parts {params : Map} (h : parseParams (fields.get "params") = .ok params)
    (p : Value → Bool) (hall : Value.allFields p fields = true) :
    Value.allFields p params = true := by
  cases hget : fields.get "params" with
  | none =>
    rw [hget] at h
    cases h
    rfl
  | some value =>
    rw [hget] at h
    cases value with
    | object fs =>
      cases h
      have hvalue := all_of_get hall hget
      simp only [Value.all, Bool.and_eq_true] at hvalue
      exact hvalue.2
    | _ => cases h

end

theorem readFrom_of_parseCall (h : parseCall fields = .ok m) : Message.ReadFrom fields m := by
  simp only [parseCall, ok_iff] at h
  obtain ⟨method, -, -, hmethod, params, hparams, hcall⟩ := h
  cases hid : fields.get "id" with
  | none =>
    rw [hid] at hcall
    cases hcall
    exact .notification hid hmethod (parseParams_parts hparams)
  | some value =>
    rw [hid] at hcall
    simp only [callWithId, ok_iff] at hcall
    obtain ⟨id, hparse, rfl⟩ := hcall
    exact .request hid hparse hmethod (parseParams_parts hparams)

/-- What an accepted value is. -/
theorem Message.readFrom_of_parseValue {v : Value} (h : Message.parseValue v = .ok m) :
    ∃ fields, v = .object fields ∧ Message.ReadFrom fields m := by
  cases v with
  | object fields =>
    refine ⟨fields, rfl, ?_⟩
    simp only [Message.parseValue, ok_iff] at h
    obtain ⟨-, -, h⟩ := h
    unfold Message.parseFields at h
    split at h
    · exact readFrom_of_parseCall h
    · next result _ hresult _ =>
      simp only [parseSuccess, ok_iff] at h
      obtain ⟨value, hid, id, hparse, rfl⟩ := h
      exact .success hid hparse hresult
    · next body _ _ hbody =>
      simp only [parseErrorResponse, ok_iff, mapError_ok_iff] at h
      obtain ⟨value, hid, id, hparse, object, hobject, rfl⟩ := h
      exact .error hid hparse hbody hobject
    · cases h
  | _ => cases h

omit [LineText] in
theorem parseErrorId_ok_cases {id : Option RequestId} (h : parseErrorId value = .ok id) :
    (value = .null ∧ id = none) ∨ ∃ id', RequestId.parse value = .ok id' ∧ id = some id' := by
  unfold parseErrorId at h
  split at h
  · cases h
    exact .inl ⟨rfl, rfl⟩
  · cases hid : RequestId.parse value with
    | ok id' =>
      rw [hid] at h
      cases h
      exact .inr ⟨id', rfl, rfl⟩
    | error e =>
      rw [hid] at h
      cases h

omit [LineText] in
theorem filter_of_ne_null {data : Option Value} (h : data ≠ some .null) :
    data.filter (· ≠ .null) = data := by
  cases data with
  | none => rfl
  | some value =>
    have hne : value ≠ .null := fun he => h (he ▸ rfl)
    simp [Option.filter, hne]

theorem Message.ReadFrom.returns (h : Message.ReadFrom fields m) (hbodies : ErrorBodies) :
    Message.parseValue m.toValue = .ok m := by
  cases h with
  | notification hid hmethod _ => exact parseValue_notification hmethod _
  | request hid hparse hmethod _ =>
    exact (parseValue_request_iff hmethod _).mpr (RequestId.parse_toValue hparse)
  | success hid hparse _ => exact parseValue_success_iff.mpr (RequestId.parse_toValue hparse)
  | @error value body id object hid hparse hbody hobject =>
    obtain ⟨hcode, hdata⟩ := hbodies.read body object hobject
    have hsame : { object with data := object.data.filter (· ≠ .null) } = object := by
      rw [filter_of_ne_null hdata]
    rcases parseErrorId_ok_cases hparse with ⟨rfl, rfl⟩ | ⟨id', hid', rfl⟩
    · have hback := parseValue_error_null hbodies hcode
      rwa [hsame] at hback
    · have hback := @parseValue_error_iff _ hbodies id' object hcode
      rw [hsame] at hback
      exact hback.mpr (RequestId.parse_toValue hid')

/-- A message has no other number tokens than what it was read from. -/
theorem Message.ReadFrom.hasNumberChars (h : Message.ReadFrom fields m) (hbodies : ErrorBodies)
    (hall : Value.allFields hasNumberChars fields = true) :
    m.toValue.all hasNumberChars = true := by
  have hid : ∀ id : RequestId, id.toValue.all Ipc.hasNumberChars = true := fun id => by
    cases id <;> rfl
  cases h with
  | notification _ _ hparams =>
    simp [Message.toValue, Message.toFields, Value.all, Value.allFields, Ipc.hasNumberChars,
      hparams _ hall]
  | request _ _ _ hparams =>
    simp [Message.toValue, Message.toFields, Value.all, Value.allFields, Ipc.hasNumberChars, hid,
      hparams _ hall]
  | success _ _ hresult =>
    simp [Message.toValue, Message.toFields, Value.all, Value.allFields, Ipc.hasNumberChars, hid,
      all_of_get hall hresult]
  | @error value body id object _ _ hbody hobject =>
    have hnull : ((id.map RequestId.toValue).getD .null).all Ipc.hasNumberChars = true := by
      cases id with
      | none => rfl
      | some id => exact hid id
    have hdata : Value.allFields Ipc.hasNumberChars object.toMap = true := by
      cases hdata : object.data with
      | none => simp [ErrorObject.toMap, hdata, Value.all, Value.allFields, Ipc.hasNumberChars]
      | some data =>
        have hpart := hbodies.part body object data hobject hdata _ (all_of_get hall hbody)
        simp [ErrorObject.toMap, hdata, Value.all, Value.allFields, Ipc.hasNumberChars, hpart]
    simp [Message.toValue, Message.toFields, Value.all, Value.allFields, Ipc.hasNumberChars, hnull,
      hdata]

/-- **A message is read back.** A message that was read from a value is read back from the value it
is written as, and every answer to a request is read back with the id of the request. It is written
as one line. -/
theorem message_returns [StringText] (hbodies : ErrorBodies) (hline : SingleLine) {v : Value}
    {m : Message} (hv : v.all hasNumberChars = true) (h : Message.parseValue v = .ok m) :
    Message.parseValue m.toValue = .ok m ∧
      (∀ request, m = .request request →
        (∀ result, Message.parseValue (Message.success ⟨request.id, result⟩).toValue
          = .ok (.success ⟨request.id, result⟩)) ∧
        ∀ body : ErrorObject, IsI64 body.code →
          Message.parseValue (Message.error ⟨some request.id, body⟩).toValue
            = .ok (.error ⟨some request.id, { body with data := body.data.filter (· ≠ .null) }⟩)) ∧
      ∃ line, writeMessage m = line ++ ['\n'] ∧ '\n' ∉ line := by
  obtain ⟨fields, rfl, hread⟩ := Message.readFrom_of_parseValue h
  refine ⟨hread.returns hbodies, ?_, m.toJson, rfl, ?_⟩
  · rintro request rfl
    cases hread with
    | request hget hparse hmethod _ =>
      have hback := RequestId.parse_toValue hparse
      exact ⟨fun result => parseValue_success_iff.mpr hback,
        fun body hcode => (parseValue_error_iff hbodies hcode).mpr hback⟩
  · simp only [Value.all, Bool.and_eq_true] at hv
    exact newline_notMem_render hline _ (hread.hasNumberChars hbodies hv.2)

end

namespace Spelling

/-- Read an error object from its three fields. -/
def readErrorObject : Value → Except String ErrorObject
  | .object fields =>
    match Map.get fields "code", Map.get fields "message" with
    | some (.number number), some (.string message) =>
      match number.asI64 with
      | some code => .ok ⟨code, message, (Map.get fields "data").filter (· ≠ .null)⟩
      | none => .error "invalid number"
    | _, _ => .error "missing field"
  | _ => .error "invalid type"

/-- Lines of which only the error objects are read. -/
scoped instance bodyText : LineText where
  utf8 _ := none
  utf8Lossy _ := ""
  parse _ := none
  errorObject := readErrorObject

/-- A string is written by the codes of its characters. -/
scoped instance codeText : StringText where
  escape text := text.toList.flatMap fun c => ' ' :: Nat.toDigits 10 c.toNat
  unescape _ := none

theorem singleLine_codeText : SingleLine := by
  intro text hmem
  obtain ⟨c, -, hc⟩ := List.mem_flatMap.mp hmem
  rw [List.mem_cons] at hc
  rcases hc with hc | hc
  · exact absurd hc (by decide)
  · cases Nat.isDigit_of_mem_toDigits (by decide) (by decide) hc

theorem isI64_of_asI64 {number : Number} {code : Int} (h : number.asI64 = some code) :
    IsI64 code := by
  cases number with
  | int n =>
    rw [Number.asI64] at h
    split at h
    · next hrange => exact Option.some.inj h ▸ hrange
    · cases h
  | float token => cases h

/-- What is read as an error object. -/
theorem readErrorObject_ok {error : ErrorObject} (h : readErrorObject value = .ok error) :
    ∃ fields, value = .object fields ∧ IsI64 error.code ∧
      error.data = (Map.get fields "data").filter (· ≠ .null) := by
  cases value with
  | object fields =>
    refine ⟨fields, rfl, ?_⟩
    unfold readErrorObject at h
    dsimp only at h
    split at h
    · split at h
      · next code hcode =>
        cases h
        exact ⟨isI64_of_asI64 hcode, rfl⟩
      · cases h
    · cases h
  | _ => cases h

theorem errorBodies_readErrorObject : ErrorBodies where
  read_back error hcode := by
    have hnumber : (Number.int error.code).asI64 = some error.code := if_pos hcode
    have hdata : Map.get error.toMap "data" = error.data := by
      cases herror : error.data <;> simp [ErrorObject.toMap, herror]
    have hcodeField : Map.get error.toMap "code" = some (.number (.int error.code)) := by
      simp [ErrorObject.toMap]
    have hmessage : Map.get error.toMap "message" = some (.string error.message) := by
      simp [ErrorObject.toMap]
    show readErrorObject (.object error.toMap) = _
    simp only [readErrorObject, hcodeField, hmessage, hnumber, hdata]
  read value error h := by
    obtain ⟨fields, -, hcode, hdata⟩ := readErrorObject_ok h
    refine ⟨hcode, ?_⟩
    rw [hdata]
    intro hnull
    simpa using (Option.filter_eq_some_iff.mp hnull).2
  part value error data h hsome p hall := by
    obtain ⟨fields, rfl, -, hdata⟩ := readErrorObject_ok h
    rw [hdata] at hsome
    simp only [Value.all, Bool.and_eq_true] at hall
    exact all_of_get hall.2 (Option.filter_eq_some_iff.mp hsome).1

/-- A call with an id. -/
def ping (id : Number) : Value :=
  .object [("jsonrpc", .string "2.0"), ("id", .number id), ("method", .string "runtime.ping")]

/-- A call with an id is read back with it. -/
theorem seven_returns :
    Message.parseValue (ping (.int 7)) = .ok (.request ⟨.unsigned 7, "runtime.ping", []⟩) ∧
      Message.parseValue (Message.request ⟨.unsigned 7, "runtime.ping", []⟩).toValue
        = .ok (.request ⟨.unsigned 7, "runtime.ping", []⟩) := by
  have hparse : Message.parseValue (ping (.int 7)) =
      .ok (.request ⟨.unsigned 7, "runtime.ping", []⟩) := by
    decide +kernel
  have hreturns := message_returns errorBodies_readErrorObject singleLine_codeText (by decide)
    hparse
  exact ⟨hparse, hreturns.1⟩

end Spelling

end Zeta.Ipc
