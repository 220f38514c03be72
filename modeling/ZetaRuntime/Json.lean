import Mathlib.Algebra.Group.Int.Defs
import Mathlib.Algebra.Group.Nat.Defs
import Mathlib.Data.List.Sort
import Mathlib.Data.String.Basic
import ZetaRuntime.Library.Outcome

/-!
# JSON values and their canonical form

Payloads are JSON objects. They are journaled as canonical bytes (sorted keys, one spelling per
number) and read back from those bytes, so the value a fact is indexed with when it is first
accepted and the value it is indexed with during replay can differ: keys are reordered and floats
are respelled. Everything that decides whether replay agrees with the live tables starts here.

## Representation

* A number is kept as its token, as serde's arbitrary-precision numbers are. An integer has one
  token: the reader turns a token that is an `i64` or a `u64` into that number, so that `-0` becomes
  `0`. Every other token has a fraction or an exponent and is a `float`.
* An object is its list of fields in insertion order. Two objects are the same value when they
  agree after sorting keys (`Value.same`), which is how the source compares maps.
* Canonical bytes are represented by the canonical tree they encode: the encoding is injective on
  trees and the tree is what every reader of the bytes gets back. The text columns of the
  projection tables are represented in the same way, by the tree of the text.
-/

namespace Zeta

variable {α : Type}

/-- A JSON number token. -/
inductive Number where
  /-- An integer in its usual spelling. -/
  | int (n : Int)
  /-- A token with a fraction or an exponent. -/
  | float (token : String)
  deriving DecidableEq, Repr

/-- A JSON value; object fields are in insertion order. -/
inductive Value where
  | null
  | bool (b : Bool)
  | number (n : Number)
  | string (s : String)
  | array (values : List Value)
  | object (fields : List (String × Value))
  deriving Repr

/-- The fields of a JSON object. -/
abbrev Map := List (String × Value)

/-! ### Equality of trees -/

namespace Value

mutual

/-- Structural equality of values. -/
def decEq : (a b : Value) → Decidable (a = b)
  | .null, .null => isTrue rfl
  | .bool a, .bool b => decidable_of_iff (a = b) (by simp)
  | .number a, .number b => decidable_of_iff (a = b) (by simp)
  | .string a, .string b => decidable_of_iff (a = b) (by simp)
  | .array a, .array b => @decidable_of_iff _ (a = b) (by simp) (decEqList a b)
  | .object a, .object b => @decidable_of_iff _ (a = b) (by simp) (decEqFields a b)
  | .null, .bool _ | .null, .number _ | .null, .string _ | .null, .array _ | .null, .object _
  | .bool _, .null | .bool _, .number _ | .bool _, .string _ | .bool _, .array _
  | .bool _, .object _ | .number _, .null | .number _, .bool _ | .number _, .string _
  | .number _, .array _ | .number _, .object _ | .string _, .null | .string _, .bool _
  | .string _, .number _ | .string _, .array _ | .string _, .object _ | .array _, .null
  | .array _, .bool _ | .array _, .number _ | .array _, .string _ | .array _, .object _
  | .object _, .null | .object _, .bool _ | .object _, .number _ | .object _, .string _
  | .object _, .array _ => isFalse (by simp)

/-- Structural equality of arrays. -/
def decEqList : (a b : List Value) → Decidable (a = b)
  | [], [] => isTrue rfl
  | x :: xs, y :: ys =>
    match decEq x y, decEqList xs ys with
    | isTrue h, isTrue h' => isTrue (by rw [h, h'])
    | isFalse h, _ => isFalse (by simp [h])
    | _, isFalse h => isFalse (by simp [h])
  | [], _ :: _ | _ :: _, [] => isFalse (by simp)

/-- Structural equality of field lists. -/
def decEqFields : (a b : List (String × Value)) → Decidable (a = b)
  | [], [] => isTrue rfl
  | (k, x) :: xs, (l, y) :: ys =>
    if hk : k = l then
      match decEq x y, decEqFields xs ys with
      | isTrue h, isTrue h' => isTrue (by rw [h, h', hk])
      | isFalse h, _ => isFalse (by simp [h])
      | _, isFalse h => isFalse (by simp [h])
    else isFalse (by simp [hk])
  | [], _ :: _ | _ :: _, [] => isFalse (by simp)

end

instance : DecidableEq Value := decEq

mutual

/-- How deeply arrays and objects nest. -/
def depth : Value → ℕ
  | .array vs => depthList vs + 1
  | .object fs => depthFields fs + 1
  | .null | .bool _ | .number _ | .string _ => 0

/-- The deepest element of an array. -/
def depthList : List Value → ℕ
  | [] => 0
  | v :: vs => max (depth v) (depthList vs)

/-- The deepest field of an object. -/
def depthFields : List (String × Value) → ℕ
  | [] => 0
  | (_, v) :: fs => max (depth v) (depthFields fs)

end

end Value

/-! ### Objects as maps -/

namespace Map

/-- The value under a key. -/
def get : Map → String → Option Value
  | [], _ => none
  | (k, v) :: m, key => if k = key then some v else get m key

/-- Set a key, in place if it is present. -/
def insert : Map → String → Value → Map
  | [], key, value => [(key, value)]
  | (k, v) :: m, key, value =>
    if k = key then (key, value) :: m else (k, v) :: insert m key value

/-- Drop a key. -/
def remove (m : Map) (key : String) : Map := m.filter fun field => field.1 ≠ key

/-- Whether a key is present. -/
def containsKey (m : Map) (key : String) : Bool := (m.get key).isSome

@[simp] theorem get_nil (key : String) : get [] key = none := rfl

@[simp] theorem get_cons (k : String) (v : Value) (m : Map) (key : String) :
    get ((k, v) :: m) key = if k = key then some v else get m key := rfl

@[simp] theorem get_insert (m : Map) (k key : String) (v : Value) :
    (m.insert k v).get key = if k = key then some v else m.get key := by
  induction m with
  | nil => rfl
  | cons field m ih =>
    obtain ⟨l, w⟩ := field
    unfold insert
    by_cases hl : l = k
    · by_cases hk : k = key
      · simp [hl, hk]
      · have : l ≠ key := fun h => hk (hl ▸ h)
        simp [hl, hk]
    · by_cases hk : k = key
      · subst hk
        simp [hl, ih]
      · simp [hl, ih, hk]

theorem get_append (m m' : Map) (key : String) :
    get (m ++ m') key = (m.get key).or (m'.get key) := by
  induction m with
  | nil => rfl
  | cons field m ih =>
    obtain ⟨k, v⟩ := field
    by_cases hk : k = key
    · simp [hk]
    · simpa [hk] using ih

/-- Order fields by key. The sort is stable, so it never changes what a key maps to. -/
def sortKeys {α : Type} (m : List (String × α)) : List (String × α) :=
  m.insertionSort fun a b => a.1 ≤ b.1

/-- Sorting leaves every lookup alone: an inserted field goes before the fields of its own key. -/
theorem get_sortKeys (m : Map) (key : String) : get (sortKeys m) key = m.get key := by
  induction m with
  | nil => rfl
  | cons field m ih =>
    obtain ⟨k, v⟩ := field
    have insert_get : ∀ l : Map,
        get (l.orderedInsert (fun a b => a.1 ≤ b.1) (k, v)) key
          = if k = key then some v else get l key := by
      intro l
      induction l with
      | nil => rfl
      | cons g l ih =>
        obtain ⟨j, w⟩ := g
        by_cases hkj : k ≤ j
        · simp [hkj]
        · have hne : k ≠ j := fun h => hkj (h ▸ le_refl k)
          simp only [List.orderedInsert_cons, hkj, if_false, get_cons, ih]
          by_cases hj : j = key
          · have : k ≠ key := fun h => hne (h.trans hj.symm)
            simp [hj, this]
          · simp [hj]
    have hsort : sortKeys ((k, v) :: m)
        = (sortKeys m).orderedInsert (fun a b => a.1 ≤ b.1) (k, v) := rfl
    rw [hsort, insert_get, ih, get_cons]

theorem sortKeys_perm (m : List (String × α)) : (sortKeys m).Perm m :=
  List.perm_insertionSort _ m

theorem sortKeys_of_sorted {m : List (String × α)} (h : m.Pairwise fun a b => a.1 ≤ b.1) :
    sortKeys m = m :=
  List.Pairwise.insertionSort_eq h

theorem pairwise_sortKeys (m : List (String × α)) : (sortKeys m).Pairwise fun a b => a.1 ≤ b.1 := by
  have : Std.Total fun a b : String × α => a.1 ≤ b.1 := ⟨fun a b => le_total a.1 b.1⟩
  have : IsTrans (String × α) fun a b => a.1 ≤ b.1 := ⟨fun _ _ _ => le_trans⟩
  exact List.pairwise_insertionSort _ m

/-- Sorting looks at keys only, so it commutes with a change of the values. -/
theorem sortKeys_map {β : Type} (f : α → β) (m : List (String × α)) :
    sortKeys (m.map fun p => (p.1, f p.2)) = (sortKeys m).map fun p => (p.1, f p.2) := by
  unfold sortKeys
  exact (List.map_insertionSort (fun a b : String × α => a.1 ≤ b.1)
    (fun a b : String × β => a.1 ≤ b.1) (fun p => (p.1, f p.2)) m
    fun _ _ _ _ => Iff.rfl).symm

end Map

/-! ### The same value, whatever the key order -/

namespace Value

mutual

/-- Sort the keys of every object. -/
def sorted : Value → Value
  | .array vs => .array (sortedList vs)
  | .object fs => .object (Map.sortKeys (sortedFields fs))
  | .null => .null
  | .bool b => .bool b
  | .number n => .number n
  | .string s => .string s

/-- Sort the keys inside every element. -/
def sortedList : List Value → List Value
  | [] => []
  | v :: vs => sorted v :: sortedList vs

/-- Sort the keys inside every field. -/
def sortedFields : List (String × Value) → List (String × Value)
  | [] => []
  | (k, v) :: fs => (k, sorted v) :: sortedFields fs

end

/-- Equality of values, objects compared as maps. -/
def same (a b : Value) : Bool := a.sorted = b.sorted

end Value

/-- Equality of objects as maps. -/
def Map.same (a b : Map) : Bool := (Value.object a).same (.object b)

/-! ### Reading numbers -/

namespace Number

/-- The token as an `i64`; a token with a fraction or an exponent never is one. -/
def asI64 : Number → Option Int
  | .int n => if -2 ^ 63 ≤ n ∧ n < 2 ^ 63 then some n else none
  | .float _ => none

/-- The token as a `u64`. -/
def asU64 : Number → Option ℕ
  | .int n => if 0 ≤ n ∧ n < 2 ^ 64 then some n.toNat else none
  | .float _ => none

end Number

/-- Reading and printing of binary64 numbers, which the JSON library takes from elsewhere. -/
class FloatText where
  /-- The finite binary64 number a token denotes. -/
  parseF64 : String → Option Float
  /-- The shortest text of a finite binary64 number. -/
  displayF64 : Float → String

/-! ### Canonical form -/

/-- Split at the first occurrence of a character. -/
def splitOnce (c : Char) : List Char → Option (List Char × List Char)
  | [] => none
  | x :: xs => if x = c then some ([], xs) else (splitOnce c xs).map fun p => (x :: p.1, p.2)

/-- Digits as a number. -/
def parseDigits (cs : List Char) : Option ℕ :=
  if cs ≠ [] ∧ cs.all Char.isDigit then
    some (cs.foldl (fun n c => 10 * n + (c.toNat - '0'.toNat)) 0)
  else none

/-- A decimal exponent. -/
def parseExponent : List Char → Option Int
  | '-' :: cs => (parseDigits cs).map fun n => -(n : Int)
  | '+' :: cs => (parseDigits cs).map fun n => (n : Int)
  | cs => (parseDigits cs).map fun n => (n : Int)

/-- Python switches to an exponent one decade earlier than the Rust printer does. -/
def fixedFloat (text : String) : String :=
  let (sign, magnitude) := match text.toList with
    | '-' :: cs => ("-", cs)
    | cs => ("", cs)
  match magnitude with
  | '0' :: '.' :: '0' :: '0' :: '0' :: '0' :: first :: rest =>
    if rest = [] then sign ++ String.ofList [first] ++ "e-05"
    else sign ++ String.ofList [first] ++ "." ++ String.ofList rest ++ "e-05"
  | _ => text

/-- A printed binary64 number, respelled as Python prints it. -/
def respell (text : String) : String :=
  match splitOnce 'e' text.toList with
  | none => fixedFloat text
  | some (mantissa, exponent) =>
    match parseExponent exponent with
    | none => text
    | some k =>
      let sign := if k < 0 then "-" else "+"
      let digits := toString k.natAbs
      let padded := if k.natAbs < 10 then "0" ++ digits else digits
      String.ofList mantissa ++ "e" ++ sign ++ padded

/-- What the float library promises: printing is read back exactly, and respelling the exponent
does not change the number. -/
class LawfulFloatText [FloatText] : Prop where
  parse_display : ∀ token x, FloatText.parseF64 token = some x →
    FloatText.parseF64 (FloatText.displayF64 x) = some x
  parse_respell : ∀ x, FloatText.parseF64 (respell (FloatText.displayF64 x)) =
    FloatText.parseF64 (FloatText.displayF64 x)

/-- Reports a number without an identity-bearing spelling. -/
inductive CanonicalJsonError where
  | integerOutOfRange (number : String)
  | floatOutOfRange (number : String)
  deriving DecidableEq, Repr

/-- The text of an encoding error. -/
def CanonicalJsonError.display : CanonicalJsonError → String
  | .integerOutOfRange number => "identity-bearing integer " ++ number ++ " must fit i64 or u64"
  | .floatOutOfRange number =>
    "identity-bearing float " ++ number ++ " must be a finite binary64 value"

/-- The fields of an object, once every one of them could be encoded. -/
def Map.collect : List (String × Except CanonicalJsonError Value) → Except CanonicalJsonError Map
  | [] => .ok []
  | (k, v) :: fs => do
    let value ← v
    let rest ← collect fs
    return (k, value) :: rest

namespace Map

theorem collect_eq_ok_iff {fs : List (String × Except CanonicalJsonError Value)} {m : Map} :
    collect fs = .ok m ↔ fs = m.map fun p => (p.1, .ok p.2) := by
  induction fs generalizing m with
  | nil =>
    cases m <;> simp [collect]
  | cons f fs ih =>
    obtain ⟨k, v⟩ := f
    simp only [collect, Outcome.ok_iff]
    constructor
    · rintro ⟨value, rfl, rest, hrest, rfl⟩
      simp [ih.mp hrest]
    · intro h
      cases m with
      | nil => simp at h
      | cons p m =>
        simp only [List.map_cons, List.cons.injEq, Prod.mk.injEq] at h
        obtain ⟨⟨rfl, rfl⟩, h⟩ := h
        exact ⟨_, rfl, m, ih.mpr h, rfl⟩

end Map

section Canonical

variable [FloatText]

variable {m m' : Map} {n : Number}

/-- The one spelling of a number that identity-bearing JSON admits. -/
def pythonNumber : Number → Except CanonicalJsonError Number
  | .int n =>
    if -2 ^ 63 ≤ n ∧ n < 2 ^ 64 then .ok (.int n)
    else .error (.integerOutOfRange (toString n))
  | .float token =>
    match FloatText.parseF64 token with
    | none => .error (.floatOutOfRange token)
    | some x => .ok (.float (respell (FloatText.displayF64 x)))

namespace Value

mutual

/-- The canonical tree of a value. Fields are visited in key order, so the first offending number
in that order is the one reported. -/
def canonical : Value → Except CanonicalJsonError Value
  | .null => .ok .null
  | .bool b => .ok (.bool b)
  | .number n => do
    let number ← pythonNumber n
    return .number number
  | .string s => .ok (.string s)
  | .array vs => do
    let values ← canonicalList vs
    return .array values
  | .object fs => do
    let fields ← Map.collect (Map.sortKeys (canonicalFields fs))
    return .object fields

/-- The canonical trees of array elements. -/
def canonicalList : List Value → Except CanonicalJsonError (List Value)
  | [] => .ok []
  | v :: vs => do
    let value ← canonical v
    let rest ← canonicalList vs
    return value :: rest

/-- The canonical tree, or the failure, of each field. -/
def canonicalFields : List (String × Value) → List (String × Except CanonicalJsonError Value)
  | [] => []
  | (k, v) :: fs => (k, canonical v) :: canonicalFields fs

end

end Value

/-- The canonical encoding of a payload. -/
def canonicalPayload (payload : Map) : Except CanonicalJsonError Map :=
  Map.collect (Map.sortKeys (Value.canonicalFields payload))

/-! ### Facts about the canonical form -/

open Outcome

/-- The numbers that have a canonical spelling, with the spelling. -/
theorem pythonNumber_ok_cases {m : Number} (h : pythonNumber n = .ok m) :
    (m = n ∧ ∀ token, n ≠ .float token) ∨
      ∃ token x, n = .float token ∧ FloatText.parseF64 token = some x ∧
        m = .float (respell (FloatText.displayF64 x)) := by
  cases n with
  | int n =>
    simp only [pythonNumber] at h
    split at h
    · cases h; simp
    · cases h
  | float token =>
    simp only [pythonNumber] at h
    split at h
    · cases h
    · rename_i x hx
      cases h
      exact .inr ⟨token, x, rfl, hx, rfl⟩

theorem pythonNumber_idem [LawfulFloatText] {m : Number} (h : pythonNumber n = .ok m) :
    pythonNumber m = .ok m := by
  rcases pythonNumber_ok_cases h with ⟨rfl, -⟩ | ⟨token, x, rfl, hx, rfl⟩
  · exact h
  · have hback : FloatText.parseF64 (respell (FloatText.displayF64 x)) = some x := by
      rw [LawfulFloatText.parse_respell, LawfulFloatText.parse_display token x hx]
    simp [pythonNumber, hback]

theorem asI64_pythonNumber {m : Number} (h : pythonNumber n = .ok m) : m.asI64 = n.asI64 := by
  rcases pythonNumber_ok_cases h with ⟨rfl, -⟩ | ⟨token, x, rfl, -, rfl⟩ <;> rfl

theorem asU64_pythonNumber {m : Number} (h : pythonNumber n = .ok m) : m.asU64 = n.asU64 := by
  rcases pythonNumber_ok_cases h with ⟨rfl, -⟩ | ⟨token, x, rfl, -, rfl⟩ <;> rfl

theorem canonicalFields_eq_map (fs : List (String × Value)) :
    Value.canonicalFields fs = fs.map fun p => (p.1, Value.canonical p.2) := by
  induction fs with
  | nil => rfl
  | cons f fs ih => simp [Value.canonicalFields, ih]

/-- The canonical payload holds the canonical form of each field, sorted by key. -/
theorem canonicalPayload_eq_ok_iff :
    canonicalPayload m = .ok m' ↔
      (Map.sortKeys m).map (fun p => (p.1, Value.canonical p.2))
        = m'.map fun p => (p.1, .ok p.2) := by
  rw [canonicalPayload, Map.collect_eq_ok_iff, canonicalFields_eq_map, Map.sortKeys_map]

theorem canonical_object (m : Map) :
    Value.canonical (.object m) = (canonicalPayload m).map Value.object := by
  simp only [Value.canonical, canonicalPayload]
  cases Map.collect (Map.sortKeys (Value.canonicalFields m)) <;> rfl

/-- The canonical form of a value is a value of the same kind. -/
theorem canonical_ok_cases {v w : Value} (h : Value.canonical v = .ok w) :
    match v with
    | .null => w = .null
    | .bool b => w = .bool b
    | .string s => w = .string s
    | .number n => ∃ m, pythonNumber n = .ok m ∧ w = .number m
    | .array vs => ∃ ws, Value.canonicalList vs = .ok ws ∧ w = .array ws
    | .object fs => ∃ m, canonicalPayload fs = .ok m ∧ w = .object m := by
  cases v with
  | null | bool | string => cases h; rfl
  | number n =>
    simp only [Value.canonical, ok_iff] at h
    obtain ⟨m, hm, rfl⟩ := h
    exact ⟨m, hm, rfl⟩
  | array vs =>
    simp only [Value.canonical, ok_iff] at h
    obtain ⟨ws, hws, rfl⟩ := h
    exact ⟨ws, hws, rfl⟩
  | object fs =>
    rw [canonical_object] at h
    cases hm : canonicalPayload fs with
    | error e => rw [hm] at h; cases h
    | ok m => rw [hm] at h; cases h; exact ⟨m, hm, rfl⟩

private theorem get_of_map_eq {key : String}
    (h : m.map (fun p => (p.1, Value.canonical p.2)) = m'.map fun p => (p.1, .ok p.2)) :
    match m.get key with
    | none => m'.get key = none
    | some v => ∃ w, Value.canonical v = .ok w ∧ m'.get key = some w := by
  induction m generalizing m' with
  | nil =>
    cases m' with
    | nil => rfl
    | cons p m' => simp at h
  | cons p m ih =>
    cases m' with
    | nil => simp at h
    | cons q m' =>
      obtain ⟨k, v⟩ := p
      obtain ⟨j, w⟩ := q
      simp only [List.map_cons, List.cons.injEq, Prod.mk.injEq] at h
      obtain ⟨⟨rfl, hv⟩, h⟩ := h
      by_cases hk : k = key
      · simp only [Map.get_cons, hk, if_true]
        exact ⟨w, hv, rfl⟩
      · simpa only [Map.get_cons, hk, if_false] using ih h

/-- Reading a field of a canonical payload gives the canonical form of the field. -/
theorem Map.get_canonical (h : canonicalPayload m = .ok m') (key : String) :
    match m.get key with
    | none => m'.get key = none
    | some v => ∃ w, Value.canonical v = .ok w ∧ m'.get key = some w := by
  rw [← Map.get_sortKeys m key]
  exact get_of_map_eq (canonicalPayload_eq_ok_iff.mp h)

/-- A payload sorted by key whose fields are all canonical is its own encoding. -/
private theorem canonicalPayload_of_fixed (hsort : m.Pairwise fun a b => a.1 ≤ b.1)
    (hfix : ∀ p ∈ m, Value.canonical p.2 = .ok p.2) : canonicalPayload m = .ok m := by
  rw [canonicalPayload_eq_ok_iff, Map.sortKeys_of_sorted hsort]
  refine List.map_congr_left fun p hp => ?_
  rw [hfix p hp]

private theorem pairwise_canonicalPayload (h : canonicalPayload m = .ok m') :
    m'.Pairwise fun a b => a.1 ≤ b.1 := by
  have hkeys := congrArg (List.map Prod.fst) (canonicalPayload_eq_ok_iff.mp h)
  simp only [List.map_map, Function.comp_def] at hkeys
  have hsorted : ((Map.sortKeys m).map Prod.fst).Pairwise (· ≤ ·) :=
    List.pairwise_map.mpr (Map.pairwise_sortKeys m)
  rw [hkeys] at hsorted
  exact List.pairwise_map.mp hsorted

private theorem mem_canonicalPayload (h : canonicalPayload m = .ok m') {p : String × Value}
    (hp : p ∈ m') : ∃ q ∈ m, q.1 = p.1 ∧ Value.canonical q.2 = .ok p.2 := by
  have hmem : (p.1, (.ok p.2 : Except CanonicalJsonError Value))
      ∈ m'.map fun p => (p.1, (.ok p.2 : Except CanonicalJsonError Value)) :=
    List.mem_map.mpr ⟨p, hp, rfl⟩
  rw [← canonicalPayload_eq_ok_iff.mp h] at hmem
  obtain ⟨q, hq, he⟩ := List.mem_map.mp hmem
  simp only [Prod.mk.injEq] at he
  exact ⟨q, (Map.sortKeys_perm m).mem_iff.mp hq, he.1, he.2⟩

mutual

/-- Encoding a canonical tree gives the tree back. -/
theorem canonical_idem [LawfulFloatText] :
    ∀ {v w : Value}, Value.canonical v = .ok w → Value.canonical w = .ok w
  | .null, _, h => by cases h; rfl
  | .bool _, _, h => by cases h; rfl
  | .string _, _, h => by cases h; rfl
  | .number n, _, h => by
    simp only [Value.canonical, ok_iff] at h
    obtain ⟨m, hm, rfl⟩ := h
    simp [Value.canonical, pythonNumber_idem hm]
  | .array vs, _, h => by
    simp only [Value.canonical, ok_iff] at h
    obtain ⟨ws, hws, rfl⟩ := h
    simp [Value.canonical, canonicalList_idem vs hws]
  | .object fs, _, h => by
    rw [canonical_object] at h
    cases hp : canonicalPayload fs with
    | error e => rw [hp] at h; cases h
    | ok m' =>
      rw [hp] at h
      cases h
      rw [canonical_object]
      have hfix : ∀ p ∈ m', Value.canonical p.2 = .ok p.2 := by
        intro p hmem
        obtain ⟨q, hq, -, hqp⟩ := mem_canonicalPayload hp hmem
        exact canonicalFields_idem fs q hq hqp
      rw [canonicalPayload_of_fixed (pairwise_canonicalPayload hp) hfix]
      rfl

theorem canonicalList_idem [LawfulFloatText] : ∀ (vs : List Value) {ws : List Value},
    Value.canonicalList vs = .ok ws → Value.canonicalList ws = .ok ws
  | [], _, h => by cases h; rfl
  | v :: vs, _, h => by
    simp only [Value.canonicalList, ok_iff] at h
    obtain ⟨w, hw, ws, hws, rfl⟩ := h
    simp [Value.canonicalList, canonical_idem hw, canonicalList_idem vs hws]

theorem canonicalFields_idem [LawfulFloatText] : ∀ (fs : List (String × Value)), ∀ q ∈ fs, ∀
    {w : Value},
    Value.canonical q.2 = .ok w → Value.canonical w = .ok w
  | (_, v) :: fs, q, hq, w, h => by
    rcases List.mem_cons.mp hq with rfl | hq
    · exact canonical_idem (v := v) h
    · exact canonicalFields_idem fs q hq h

end

/-- Encoding a payload read back from canonical bytes gives the same bytes. -/
theorem canonicalPayload_idem [LawfulFloatText] (h : canonicalPayload m = .ok m') :
    canonicalPayload m' = .ok m' := by
  refine canonicalPayload_of_fixed (pairwise_canonicalPayload h) fun p hp => ?_
  obtain ⟨q, -, -, hq⟩ := mem_canonicalPayload h hp
  exact canonical_idem hq

end Canonical

end Zeta
