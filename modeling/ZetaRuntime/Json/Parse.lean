import ZetaRuntime.Json.Text

/-!
# Reading JSON text

The parser keeps number tokens as written, except that `-0` is the integer zero, sets a key that
comes twice a second time, and gives up at a limit of nesting. It is a function of a fuel that
bounds its calls; a text parses if some fuel is enough, and more fuel and a larger limit never
change what was read (`parseValue_extends`).
-/

namespace Zeta

open Outcome

variable {cs rest : List Char} {vs : List Value} {acc fs : Map} {v : Value} {Q : Value → Prop}
  {d e m n : ℕ}

/-! ### Parsing -/

/-- JSON white space. -/
def isBlank (c : Char) : Bool := c = ' ' || c = '\n' || c = '\t' || c = '\r'

/-- Drop leading white space. -/
def skipBlank (cs : List Char) : List Char := cs.dropWhile isBlank

/-- The digits of a text, and what follows them. -/
def spanDigits (cs : List Char) : List Char × List Char :=
  (cs.takeWhile Char.isDigit, cs.dropWhile Char.isDigit)

/-- The digits of a number before its point: no digit may follow a zero. -/
def scanInteger (cs : List Char) : Option (List Char × List Char) :=
  match spanDigits cs with
  | ([], _) => none
  | ('0' :: _ :: _, _) => none
  | (digits, rest) => some (digits, rest)

/-- The point of a number and the digits after it. -/
def scanFraction : List Char → Option (List Char × List Char)
  | '.' :: cs =>
    match spanDigits cs with
    | ([], _) => none
    | (digits, rest) => some ('.' :: digits, rest)
  | cs => some ([], cs)

/-- The sign of an exponent. -/
def scanSign : List Char → List Char × List Char
  | '+' :: cs => (['+'], cs)
  | '-' :: cs => (['-'], cs)
  | cs => ([], cs)

/-- The exponent of a number. -/
def scanExponent : List Char → Option (List Char × List Char)
  | [] => some ([], [])
  | c :: cs =>
    if c = 'e' ∨ c = 'E' then
      match spanDigits (scanSign cs).2 with
      | ([], _) => none
      | (digits, rest) => some (c :: ((scanSign cs).1 ++ digits), rest)
    else some ([], c :: cs)

/-- The number of a token: an integer if it has neither a point nor an exponent. The library parses
such a token as an `i64` or a `u64` before it keeps it as a text, so `-0` is read as `0`. -/
def numberOfToken (negative : Bool) (digits fraction exponent : List Char) : Number :=
  if fraction = [] ∧ exponent = [] then
    if negative then .int (-(Nat.ofDigitChars 10 digits 0 : Int))
    else .int (Nat.ofDigitChars 10 digits 0 : Int)
  else .float (String.ofList ((if negative then ['-'] else []) ++ digits ++ fraction ++ exponent))

/-- Read the token of a number after its sign. -/
def scanMagnitude (negative : Bool) (cs : List Char) : Option (Number × List Char) := do
  let (digits, cs) ← scanInteger cs
  let (fraction, cs) ← scanFraction cs
  let (exponent, cs) ← scanExponent cs
  return (numberOfToken negative digits fraction exponent, cs)

/-- Read the token of a number, and keep it. -/
def scanNumber : List Char → Option (Number × List Char)
  | '-' :: cs => scanMagnitude true cs
  | cs => scanMagnitude false cs

/-- Drop the characters of a literal. -/
def stripLiteral : List Char → List Char → Option (List Char)
  | [], cs => some cs
  | x :: xs, c :: cs => if x = c then stripLiteral xs cs else none
  | _ :: _, [] => none

section Parse

variable [StringText]

/-- What is read: something, and the text that is left. -/
abbrev Parser (α : Type) := List Char → Option (α × List Char)

/-- Read elements of an array, up to and with the closing bracket. -/
def parseElements (parse : Parser Value) : ℕ → Parser (List Value)
  | 0, _ => none
  | fuel + 1, cs => do
    let (value, cs) ← parse cs
    match skipBlank cs with
    | ',' :: cs => do
      let (values, cs) ← parseElements parse fuel cs
      return (value :: values, cs)
    | ']' :: cs => return ([value], cs)
    | _ => none

/-- Read a key, up to and with the colon after it. -/
def parseKey (cs : List Char) : Option (String × List Char) :=
  match skipBlank cs with
  | '"' :: cs => do
    let (key, cs) ← StringText.unescape cs
    match skipBlank cs with
    | ':' :: cs => return (key, cs)
    | _ => none
  | _ => none

/-- Read fields of an object into a map, up to and with the closing brace. -/
def parseFields (parse : Parser Value) : ℕ → Map → Parser Map
  | 0, _, _ => none
  | fuel + 1, fields, cs => do
    let (key, cs) ← parseKey cs
    let (value, cs) ← parse cs
    match skipBlank cs with
    | ',' :: cs => parseFields parse fuel (fields.insert key value) cs
    | '}' :: cs => return (fields.insert key value, cs)
    | _ => none

/-- Read an array whose opening bracket was read. -/
def parseArray (parse : Parser Value) (fuel : ℕ) (cs : List Char) : Option (Value × List Char) :=
  match skipBlank cs with
  | ']' :: cs => some (.array [], cs)
  | cs => (parseElements parse fuel cs).map fun p => (.array p.1, p.2)

/-- Read an object whose opening brace was read. -/
def parseObject (parse : Parser Value) (fuel : ℕ) (cs : List Char) : Option (Value × List Char) :=
  match skipBlank cs with
  | '}' :: cs => some (.object [], cs)
  | cs => (parseFields parse fuel [] cs).map fun p => (.object p.1, p.2)

/-- Read a value that is not nested. -/
def parseScalar (c : Char) (cs : List Char) : Option (Value × List Char) :=
  if c = 'n' then (stripLiteral ['u', 'l', 'l'] cs).map fun rest => (.null, rest)
  else if c = 't' then (stripLiteral ['r', 'u', 'e'] cs).map fun rest => (.bool true, rest)
  else if c = 'f' then (stripLiteral ['a', 'l', 's', 'e'] cs).map fun rest => (.bool false, rest)
  else if c = '"' then (StringText.unescape cs).map fun p => (.string p.1, p.2)
  else (scanNumber (c :: cs)).map fun p => (.number p.1, p.2)

/-- Read a value. Every bracket and every brace takes one from the depth that remains, and the
parser gives up when nothing remains. -/
def parseValue : ℕ → ℕ → Parser Value
  | 0, _, _ => none
  | fuel + 1, depth, cs =>
    match skipBlank cs with
    | [] => none
    | c :: cs =>
      if c = '[' then
        if depth ≤ 1 then none else parseArray (parseValue fuel (depth - 1)) fuel cs
      else if c = '{' then
        if depth ≤ 1 then none else parseObject (parseValue fuel (depth - 1)) fuel cs
      else parseScalar c cs

/-- Parse a text: one value, and nothing but white space around it. -/
def parseText (fuel depth : ℕ) (cs : List Char) : Option Value := do
  let (value, rest) ← parseValue fuel depth cs
  if skipBlank rest = [] then return value else none

/-- A text parses to a value, within some depth of nesting. -/
def Parses (depth : ℕ) (cs : List Char) (value : Value) : Prop :=
  ∃ fuel, parseText fuel depth cs = some value

/-! ### More fuel and more depth -/

/-- A parser that reads everything another one reads, in the same way. -/
def Parser.Extends {α : Type} (q p : Parser α) : Prop := ∀ cs r, p cs = some r → q cs = some r

omit [StringText] in
theorem parseElements_extends {p q : Parser Value} (h : q.Extends p) (hle : n ≤ m) :
    (parseElements q m).Extends (parseElements p n) := by
  induction n generalizing m with
  | zero => exact fun cs r hr => nomatch hr
  | succ n ih =>
    obtain ⟨m, rfl⟩ : ∃ k, m = k + 1 := ⟨m - 1, by omega⟩
    intro cs r hr
    simp only [parseElements, Option.bind_eq_bind, Option.bind_eq_some_iff] at hr ⊢
    obtain ⟨⟨value, rest⟩, hvalue, hr⟩ := hr
    refine ⟨(value, rest), h _ _ hvalue, ?_⟩
    split at hr
    · obtain ⟨⟨values, rest'⟩, hvalues, hr⟩ := Option.bind_eq_some_iff.mp hr
      exact Option.bind_eq_some_iff.mpr ⟨_, ih (Nat.le_of_succ_le_succ hle) _ _ hvalues, hr⟩
    · exact hr
    · cases hr

theorem parseFields_extends {p q : Parser Value} (h : q.Extends p) (hle : n ≤ m) (fields : Map) :
    (parseFields q m fields).Extends (parseFields p n fields) := by
  induction n generalizing m fields with
  | zero => exact fun cs r hr => nomatch hr
  | succ n ih =>
    obtain ⟨m, rfl⟩ : ∃ k, m = k + 1 := ⟨m - 1, by omega⟩
    intro cs r hr
    simp only [parseFields, Option.bind_eq_bind, Option.bind_eq_some_iff] at hr ⊢
    obtain ⟨⟨key, rest⟩, hkey, ⟨value, rest'⟩, hvalue, hr⟩ := hr
    refine ⟨(key, rest), hkey, (value, rest'), h _ _ hvalue, ?_⟩
    split at hr
    · exact ih (Nat.le_of_succ_le_succ hle) _ _ _ hr
    · exact hr
    · cases hr

omit [StringText] in
theorem parseArray_extends {p q : Parser Value} (h : q.Extends p) (hle : n ≤ m) :
    Parser.Extends (parseArray q m) (parseArray p n) := by
  intro cs r hr
  simp only [parseArray] at hr ⊢
  split at hr
  · exact hr
  · obtain ⟨⟨values, rest⟩, hvalues, hr⟩ := Option.map_eq_some_iff.mp hr
    exact Option.map_eq_some_iff.mpr ⟨_, parseElements_extends h hle _ _ hvalues, hr⟩

theorem parseObject_extends {p q : Parser Value} (h : q.Extends p) (hle : n ≤ m) :
    Parser.Extends (parseObject q m) (parseObject p n) := by
  intro cs r hr
  simp only [parseObject] at hr ⊢
  split at hr
  · exact hr
  · obtain ⟨⟨fields, rest⟩, hfields, hr⟩ := Option.map_eq_some_iff.mp hr
    exact Option.map_eq_some_iff.mpr ⟨_, parseFields_extends h hle _ _ _ hfields, hr⟩

/-- More fuel and a larger limit change nothing about what was read. -/
theorem parseValue_extends (hfuel : n ≤ m) (hdepth : d ≤ e) :
    (parseValue m e).Extends (parseValue n d) := by
  induction n generalizing m d e with
  | zero => exact fun cs r hr => nomatch hr
  | succ n ih =>
    obtain ⟨m, rfl⟩ : ∃ k, m = k + 1 := ⟨m - 1, by omega⟩
    have hle : n ≤ m := Nat.le_of_succ_le_succ hfuel
    have hinner : (parseValue m (e - 1)).Extends (parseValue n (d - 1)) :=
      ih hle (Nat.sub_le_sub_right hdepth 1)
    intro cs r hr
    simp only [parseValue] at hr ⊢
    split at hr
    · cases hr
    · next c rest hcs =>
      split at hr
      · next hc =>
        split at hr
        · cases hr
        · next hd =>
          rw [if_pos hc, if_neg (fun he => hd (hdepth.trans he))]
          exact parseArray_extends hinner hle _ _ hr
      · next hc =>
        rw [if_neg hc]
        split at hr
        · next hc' =>
          split at hr
          · cases hr
          · next hd =>
            rw [if_pos hc', if_neg (fun he => hd (hdepth.trans he))]
            exact parseObject_extends hinner hle _ _ hr
        · next hc' =>
          rw [if_neg hc']
          exact hr

/-- A text parses to one value at most. -/
theorem Parses.unique {w : Value} (hv : Parses d cs v) (hw : Parses e cs w) : v = w := by
  obtain ⟨n, hv⟩ := hv
  obtain ⟨m, hw⟩ := hw
  simp only [parseText, Option.bind_eq_bind, Option.bind_eq_some_iff] at hv hw
  obtain ⟨⟨v', rest⟩, hv', hv⟩ := hv
  obtain ⟨⟨w', rest'⟩, hw', hw⟩ := hw
  have hread : parseValue (max n m) (max d e) cs = some (v', rest) :=
    parseValue_extends (le_max_left n m) (le_max_left d e) _ _ hv'
  have hread' : parseValue (max n m) (max d e) cs = some (w', rest') :=
    parseValue_extends (le_max_right n m) (le_max_right d e) _ _ hw'
  obtain ⟨rfl, rfl⟩ := Prod.mk.inj (Option.some.inj (hread.symm.trans hread'))
  split at hv
  · next hblank =>
    rw [if_pos hblank] at hw
    exact (Option.some.inj hv).symm.trans (Option.some.inj hw)
  · cases hv

end Parse

/-! ### Conditions on values -/

namespace Value

mutual

/-- Whether a value and everything inside it satisfies a condition. -/
def all (p : Value → Bool) : Value → Bool
  | .array vs => p (.array vs) && allList p vs
  | .object fs => p (.object fs) && allFields p fs
  | .null => p .null
  | .bool b => p (.bool b)
  | .number n => p (.number n)
  | .string s => p (.string s)

/-- Whether the elements of an array and everything inside them satisfy a condition. -/
def allList (p : Value → Bool) : List Value → Bool
  | [] => true
  | v :: vs => all p v && allList p vs

/-- Whether the fields of an object and everything inside them satisfy a condition. -/
def allFields (p : Value → Bool) : List (String × Value) → Bool
  | [] => true
  | (_, v) :: fs => all p v && allFields p fs

end

/-- A number without a fraction and an exponent. -/
def isIntegral : Value → Bool
  | .number (.float _) => false
  | _ => true

/-- An object with different keys. This is an invariant of the type of maps. -/
def isKeyed : Value → Bool
  | .object fs => (fs.map Prod.fst).Nodup
  | _ => true

end Value

section Shape

variable [StringText]

variable {p : Parser Value} {q : Value → Bool}

/-! ### Depth -/

omit [StringText] in
/-- The elements that were read are what the parser reads. -/
theorem forall_of_parseElements (hp : ∀ cs v rest, p cs = some (v, rest) → Q v)
    (h : parseElements p n cs = some (vs, rest)) : ∀ v ∈ vs, Q v := by
  induction n generalizing cs rest vs with
  | zero => cases h
  | succ n ih =>
    simp only [parseElements, Option.bind_eq_bind, Option.bind_eq_some_iff] at h
    obtain ⟨⟨v, cs'⟩, hv, h⟩ := h
    split at h
    · obtain ⟨⟨ws, cs''⟩, hws, h⟩ := Option.bind_eq_some_iff.mp h
      cases h
      exact List.forall_mem_cons.mpr ⟨hp _ _ _ hv, ih hws⟩
    · cases h
      exact List.forall_mem_singleton.mpr (hp _ _ _ hv)
    · cases h

omit [StringText] in
theorem Map.forall_insert {m : Map} (hm : ∀ f ∈ m, Q f.2) (key : String) (hv : Q v) :
    ∀ f ∈ m.insert key v, Q f.2 := by
  induction m with
  | nil => simpa [Map.insert] using hv
  | cons field m ih =>
    obtain ⟨k, w⟩ := field
    obtain ⟨hw, hm⟩ := List.forall_mem_cons.mp hm
    unfold Map.insert
    split
    · exact List.forall_mem_cons.mpr ⟨hv, hm⟩
    · exact List.forall_mem_cons.mpr ⟨hw, ih hm⟩

/-- The fields that were read are what the parser reads. -/
theorem forall_of_parseFields (hp : ∀ cs v rest, p cs = some (v, rest) → Q v)
    (hacc : ∀ f ∈ acc, Q f.2) (h : parseFields p n acc cs = some (fs, rest)) : ∀ f ∈ fs, Q f.2 := by
  induction n generalizing cs rest acc fs with
  | zero => cases h
  | succ n ih =>
    simp only [parseFields, Option.bind_eq_bind, Option.bind_eq_some_iff] at h
    obtain ⟨⟨key, cs'⟩, -, ⟨v, cs''⟩, hv, h⟩ := h
    split at h
    · exact ih (Map.forall_insert hacc key (hp _ _ _ hv)) h
    · cases h
      exact Map.forall_insert hacc key (hp _ _ _ hv)
    · cases h

omit [StringText] in
theorem depthList_lt (hd : 0 < d) (h : ∀ v ∈ vs, v.depth < d) : Value.depthList vs < d := by
  induction vs with
  | nil => exact hd
  | cons v vs ih =>
    obtain ⟨hv, hvs⟩ := List.forall_mem_cons.mp h
    exact max_lt hv (ih hvs)

omit [StringText] in
theorem depthFields_lt (hd : 0 < d) (h : ∀ f ∈ fs, f.2.depth < d) : Value.depthFields fs < d := by
  induction fs with
  | nil => exact hd
  | cons f fs ih =>
    obtain ⟨hf, hfs⟩ := List.forall_mem_cons.mp h
    exact max_lt hf (ih hfs)

/-- What is not nested has no depth. -/
theorem depth_of_parseScalar {c : Char} (h : parseScalar c cs = some (v, rest)) : v.depth = 0 := by
  unfold parseScalar at h
  split_ifs at h <;>
    obtain ⟨_, -, hr⟩ := Option.map_eq_some_iff.mp h <;>
    cases hr <;> rfl

/-- What was read is not nested deeper than the limit allows. -/
theorem depth_lt_of_parseValue (hd : 0 < d) (h : parseValue n d cs = some (v, rest)) :
    v.depth < d := by
  induction n generalizing d cs rest v with
  | zero => cases h
  | succ n ih =>
    simp only [parseValue] at h
    split at h
    · cases h
    · next c cs' _ =>
      split at h
      · split at h
        · cases h
        · next hd' =>
          have hinner : ∀ cs w rest, parseValue n (d - 1) cs = some (w, rest) → w.depth < d - 1 :=
            fun _ _ _ => ih (by omega)
          unfold parseArray at h
          split at h
          · cases h
            show 0 + 1 < d
            omega
          · obtain ⟨⟨vs, rest'⟩, hvs, hr⟩ := Option.map_eq_some_iff.mp h
            cases hr
            have hlist := depthList_lt (by omega) (forall_of_parseElements hinner hvs)
            show Value.depthList vs + 1 < d
            omega
      · split at h
        · split at h
          · cases h
          · next hd' =>
            have hinner : ∀ cs w rest, parseValue n (d - 1) cs = some (w, rest) → w.depth < d - 1 :=
              fun _ _ _ => ih (by omega)
            unfold parseObject at h
            split at h
            · cases h
              show 0 + 1 < d
              omega
            · obtain ⟨⟨fs, rest'⟩, hfs, hr⟩ := Option.map_eq_some_iff.mp h
              cases hr
              have hfields := depthFields_lt (by omega)
                (forall_of_parseFields hinner (List.forall_mem_nil _) hfs)
              show Value.depthFields fs + 1 < d
              omega
        · rw [depth_of_parseScalar h]
          exact hd

/-! ### Keys -/

omit [StringText] in
theorem Map.keys_insert (m : Map) (key : String) (v : Value) :
    (m.insert key v).map Prod.fst
      = if key ∈ m.map Prod.fst then m.map Prod.fst else m.map Prod.fst ++ [key] := by
  induction m with
  | nil => rfl
  | cons field m ih =>
    obtain ⟨k, w⟩ := field
    unfold Map.insert
    by_cases hk : k = key
    · simp [hk]
    · rw [if_neg hk, List.map_cons, List.map_cons, ih]
      by_cases hmem : key ∈ m.map Prod.fst
      · rw [if_pos hmem, if_pos (List.mem_cons_of_mem k hmem)]
      · rw [if_neg hmem, if_neg (List.not_mem_cons_of_ne_of_not_mem (Ne.symm hk) hmem)]
        rfl

omit [StringText] in
theorem Map.nodup_insert {m : Map} (h : (m.map Prod.fst).Nodup) (key : String) (v : Value) :
    ((m.insert key v).map Prod.fst).Nodup := by
  rw [Map.keys_insert]
  split
  · exact h
  · next hkey =>
    refine List.nodup_append.mpr ⟨h, List.nodup_singleton key, ?_⟩
    rintro a ha b hb rfl
    exact hkey (List.mem_singleton.mp hb ▸ ha)

theorem nodup_of_parseFields (hacc : (acc.map Prod.fst).Nodup)
    (h : parseFields p n acc cs = some (fs, rest)) : (fs.map Prod.fst).Nodup := by
  induction n generalizing cs rest acc fs with
  | zero => cases h
  | succ n ih =>
    simp only [parseFields, Option.bind_eq_bind, Option.bind_eq_some_iff] at h
    obtain ⟨⟨key, cs'⟩, -, ⟨v, cs''⟩, -, h⟩ := h
    split at h
    · exact ih (Map.nodup_insert hacc key v) h
    · cases h
      exact Map.nodup_insert hacc key v
    · cases h

omit [StringText] in
theorem allList_iff : Value.allList q vs = true ↔ ∀ v ∈ vs, v.all q = true := by
  induction vs with
  | nil => simp [Value.allList]
  | cons v vs ih => simp [Value.allList, ih]

omit [StringText] in
theorem allFields_iff : Value.allFields q fs = true ↔ ∀ f ∈ fs, f.2.all q = true := by
  induction fs with
  | nil => simp [Value.allFields]
  | cons f fs ih => simp [Value.allFields, ih]

/-- The objects that were read have different keys. -/
theorem keyed_of_parseValue (h : parseValue n d cs = some (v, rest)) :
    v.all Value.isKeyed = true := by
  induction n generalizing d cs rest v with
  | zero => cases h
  | succ n ih =>
    have hinner : ∀ cs w rest, parseValue n (d - 1) cs = some (w, rest) →
        w.all Value.isKeyed = true :=
      fun _ _ _ => ih
    simp only [parseValue] at h
    split at h
    · cases h
    · split_ifs at h
      · unfold parseArray at h
        split at h
        · cases h
          rfl
        · obtain ⟨⟨vs, rest'⟩, hvs, hr⟩ := Option.map_eq_some_iff.mp h
          cases hr
          exact allList_iff.mpr (forall_of_parseElements hinner hvs)
      · unfold parseObject at h
        split at h
        · cases h
          rfl
        · obtain ⟨⟨fs, rest'⟩, hfs, hr⟩ := Option.map_eq_some_iff.mp h
          cases hr
          simp only [Value.all, Value.isKeyed, Bool.and_eq_true, decide_eq_true_eq]
          have hnodup : (([] : Map).map Prod.fst).Nodup := List.nodup_nil
          exact ⟨nodup_of_parseFields hnodup hfs,
            allFields_iff.mpr (forall_of_parseFields hinner (List.forall_mem_nil _) hfs)⟩
      · unfold parseScalar at h
        split_ifs at h <;>
          obtain ⟨_, -, hr⟩ := Option.map_eq_some_iff.mp h <;>
          cases hr <;> rfl

theorem Parses.exists (h : Parses d cs v) : ∃ n rest, parseValue n d cs = some (v, rest) := by
  obtain ⟨n, h⟩ := h
  simp only [parseText, Option.bind_eq_bind, Option.bind_eq_some_iff] at h
  obtain ⟨⟨w, rest⟩, hw, h⟩ := h
  split at h
  · cases h
    exact ⟨n, rest, hw⟩
  · cases h

theorem Parses.keyed (h : Parses d cs v) : v.all Value.isKeyed = true := by
  obtain ⟨n, rest, h⟩ := h.exists
  exact keyed_of_parseValue h

theorem Parses.depth_lt (hd : 0 < d) (h : Parses d cs v) : v.depth < d := by
  obtain ⟨n, rest, h⟩ := h.exists
  exact depth_lt_of_parseValue hd h

end Shape

end Zeta
