import ZetaRuntime.Json

/-!
# Canonical JSON as text

The bytes that get hashed are a text: sorted keys, no blanks, one spelling per number. The rest of
the development represents such bytes by the tree they encode. Here is the text itself, as the
writer produces it. Bytes are represented by the characters they encode.

The writer goes over a value once and sorts the keys of every object as it meets it.
`canonicalJson_eq` splits it in two: the canonical tree of the value, and a plain rendering of that
tree.
-/

namespace Zeta

open Outcome

/-- The escaping of strings by the JSON library. -/
class StringText where
  /-- The characters after the opening quotation mark, up to and with the closing one. -/
  escape : String → List Char
  /-- Read a string whose opening quotation mark was read. -/
  unescape : List Char → Option (String × List Char)

/-- What the JSON library promises: a string that was escaped is read back, whatever follows it. -/
class LawfulStringText [StringText] : Prop where
  unescape_escape : ∀ s rest, StringText.unescape (StringText.escape s ++ rest) = some (s, rest)

/-- The token of a number. -/
def Number.text : Number → List Char
  | .int n => (toString n).toList
  | .float token => token.toList

/-! ### Writing -/

section Write

variable [StringText]

/-- Write a string with its quotation marks. -/
def writeString (s : String) : List Char := '"' :: StringText.escape s

/-- The fields of an object from the second on, each after a comma. -/
def joinTail : List (String × List Char) → List Char
  | [] => []
  | (key, text) :: fields => ',' :: (writeString key ++ ':' :: (text ++ joinTail fields))

/-- The fields of an object, with commas between them. -/
def joinFields : List (String × List Char) → List Char
  | [] => []
  | (key, text) :: fields => writeString key ++ ':' :: (text ++ joinTail fields)

/-- The texts of some fields, once every one of them could be written. -/
def collectTexts : List (String × Except CanonicalJsonError (List Char)) →
    Except CanonicalJsonError (List (String × List Char))
  | [] => .ok []
  | (key, text) :: fields => do
    let text ← text
    let rest ← collectTexts fields
    return (key, text) :: rest

variable [FloatText]

mutual

/-- Write a value with the canonical byte representation. -/
def writeValue : Value → Except CanonicalJsonError (List Char)
  | .null => .ok ['n', 'u', 'l', 'l']
  | .bool true => .ok ['t', 'r', 'u', 'e']
  | .bool false => .ok ['f', 'a', 'l', 's', 'e']
  | .number n => do
    let number ← pythonNumber n
    return number.text
  | .string s => .ok (writeString s)
  | .array values => do
    let inner ← writeElements values
    return '[' :: (inner ++ [']'])
  | .object fields => do
    let fields ← collectTexts (Map.sortKeys (writeFields fields))
    return '{' :: (joinFields fields ++ ['}'])

/-- Write the elements of an array. -/
def writeElements : List Value → Except CanonicalJsonError (List Char)
  | [] => .ok []
  | value :: values => do
    let first ← writeValue value
    let rest ← writeTail values
    return first ++ rest

/-- Write the elements of an array from the second on, each after a comma. -/
def writeTail : List Value → Except CanonicalJsonError (List Char)
  | [] => .ok []
  | value :: values => do
    let first ← writeValue value
    let rest ← writeTail values
    return ',' :: (first ++ rest)

/-- The text, or the failure, of each field. -/
def writeFields : List (String × Value) → List (String × Except CanonicalJsonError (List Char))
  | [] => []
  | (key, value) :: fields => (key, writeValue value) :: writeFields fields

end

/-- Encode a value with the canonical byte representation. -/
def canonicalJson (value : Value) : Except CanonicalJsonError (List Char) := writeValue value

end Write

/-! ### Rendering a tree as it is -/

section Render

variable [StringText]

mutual

/-- The text of a tree. -/
def render : Value → List Char
  | .null => ['n', 'u', 'l', 'l']
  | .bool true => ['t', 'r', 'u', 'e']
  | .bool false => ['f', 'a', 'l', 's', 'e']
  | .number n => n.text
  | .string s => writeString s
  | .array values => '[' :: (renderElements values ++ [']'])
  | .object fields => '{' :: (joinFields (renderFields fields) ++ ['}'])

/-- The text of the elements of an array. -/
def renderElements : List Value → List Char
  | [] => []
  | value :: values => render value ++ renderTail values

/-- The text of the elements of an array from the second on. -/
def renderTail : List Value → List Char
  | [] => []
  | value :: values => ',' :: (render value ++ renderTail values)

/-- The text of each field. -/
def renderFields : List (String × Value) → List (String × List Char)
  | [] => []
  | (key, value) :: fields => (key, render value) :: renderFields fields

end

/-- Collecting texts of trees is rendering the collected trees. -/
theorem collectTexts_map (fields : List (String × Except CanonicalJsonError Value)) :
    collectTexts (fields.map fun p => (p.1, p.2.map render))
      = (Map.collect fields).map renderFields := by
  induction fields with
  | nil => rfl
  | cons field fields ih =>
    obtain ⟨key, value⟩ := field
    simp only [List.map_cons, collectTexts, Map.collect, ih]
    cases value with
    | error e => rfl
    | ok value =>
      cases Map.collect fields with
      | error e => rfl
      | ok rest => rfl

variable [FloatText]

mutual

/-- The writer renders the canonical tree of a value. -/
theorem writeValue_eq : ∀ v : Value, writeValue v = v.canonical.map render
  | .null => rfl
  | .bool true => rfl
  | .bool false => rfl
  | .number n => by
    simp only [writeValue, Value.canonical]
    cases pythonNumber n <;> rfl
  | .string _ => rfl
  | .array values => by
    simp only [writeValue, Value.canonical, writeElements_eq values]
    cases Value.canonicalList values <;> rfl
  | .object fields => by
    have hfields : writeFields fields
        = (Value.canonicalFields fields).map fun p => (p.1, p.2.map render) := writeFields_eq fields
    simp only [writeValue, Value.canonical, hfields, Map.sortKeys_map, collectTexts_map]
    cases Map.collect (Map.sortKeys (Value.canonicalFields fields)) <;> rfl

theorem writeElements_eq : ∀ vs : List Value,
    writeElements vs = (Value.canonicalList vs).map renderElements
  | [] => rfl
  | v :: vs => by
    simp only [writeElements, Value.canonicalList, writeValue_eq v, writeTail_eq vs]
    cases v.canonical with
    | error e => rfl
    | ok w => cases Value.canonicalList vs <;> rfl

theorem writeTail_eq : ∀ vs : List Value,
    writeTail vs = (Value.canonicalList vs).map renderTail
  | [] => rfl
  | v :: vs => by
    simp only [writeTail, Value.canonicalList, writeValue_eq v, writeTail_eq vs]
    cases v.canonical with
    | error e => rfl
    | ok w => cases Value.canonicalList vs <;> rfl

theorem writeFields_eq : ∀ fs : List (String × Value),
    writeFields fs = (Value.canonicalFields fs).map fun p => (p.1, p.2.map render)
  | [] => rfl
  | (key, v) :: fs => by
    simp only [writeFields, Value.canonicalFields, writeValue_eq v, writeFields_eq fs,
      List.map_cons]

end

/-- The canonical bytes of a value are those of its canonical tree. -/
theorem canonicalJson_eq (v : Value) : canonicalJson v = v.canonical.map render := writeValue_eq v

end Render

end Zeta
