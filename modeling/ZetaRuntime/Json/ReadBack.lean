import ZetaRuntime.Json.Parse

/-!
# Rendered text is read back

A text that was rendered from a tree of integer tokens is read back as that tree, in front of any
text that does not continue a number. So the text determines the tree, however deep it is nested: a
parser with a limit that is large enough for it reads it.
-/

namespace Zeta

open Outcome

variable {c : Char} {cs cs' rest : List Char} {fields : Map} {p : Parser Value} {key : String}
  {v : Value} {depth n : ℕ}

/-! ### Reading numbers back -/

/-- A text that does not continue the number before it. -/
def EndsNumber (rest : List Char) : Prop :=
  ∀ c ∈ rest.head?, c.isDigit = false ∧ c ≠ '.' ∧ c ≠ 'e' ∧ c ≠ 'E'

theorem endsNumber_nil : EndsNumber [] := fun _ h => nomatch h

theorem endsNumber_cons (h : c.isDigit = false ∧ c ≠ '.' ∧ c ≠ 'e' ∧ c ≠ 'E')
    (rest : List Char) : EndsNumber (c :: rest) := by
  intro d hd
  cases hd
  exact h

theorem spanDigits_append {digits : List Char} (h : ∀ c ∈ digits, c.isDigit = true)
    (hrest : ∀ c ∈ rest.head?, c.isDigit = false) :
    spanDigits (digits ++ rest) = (digits, rest) := by
  rw [spanDigits, List.takeWhile_append_of_pos h, List.dropWhile_append_of_pos h]
  cases rest with
  | nil => simp
  | cons c rest => simp [hrest c rfl]

/-- A positive number is not spelled with a leading zero. -/
theorem head?_toDigits (h : 0 < n) : (Nat.toDigits 10 n).head? ≠ some '0' := by
  induction n using Nat.strong_induction_on with
  | _ n ih =>
    by_cases hlt : n < 10
    · rw [Nat.toDigits_of_lt_base hlt]
      intro hhead
      exact absurd (Nat.digitChar_eq_zero.mp (Option.some.inj hhead)) h.ne'
    · have hdiv : 0 < n / 10 := Nat.div_pos (not_lt.mp hlt) (by decide)
      rw [Nat.toDigits_of_base_le (by decide) (not_lt.mp hlt),
        List.head?_append_of_ne_nil _ Nat.toDigits_ne_nil]
      exact ih (n / 10) (Nat.div_lt_self h (by decide)) hdiv

theorem scanInteger_toDigits (n : ℕ) (h : EndsNumber rest) :
    scanInteger (Nat.toDigits 10 n ++ rest) = some (Nat.toDigits 10 n, rest) := by
  have hspan : spanDigits (Nat.toDigits 10 n ++ rest) = (Nat.toDigits 10 n, rest) :=
    spanDigits_append (fun c hc => Nat.isDigit_of_mem_toDigits (by decide) (by decide) hc)
      fun c hc => (h c hc).1
  rw [scanInteger, hspan]
  split
  · next heq => exact absurd (congrArg Prod.fst heq) Nat.toDigits_ne_nil
  · next c cs _ heq =>
    have hdigits : Nat.toDigits 10 n = '0' :: c :: cs := congrArg Prod.fst heq
    rcases Nat.eq_zero_or_pos n with rfl | hpos
    · rw [Nat.toDigits_zero] at hdigits
      cases hdigits
    · exact absurd (by rw [hdigits]; rfl) (head?_toDigits hpos)
  · next heq => rw [← heq]

theorem scanFraction_of_ends (h : EndsNumber rest) : scanFraction rest = some ([], rest) := by
  cases rest with
  | nil => rfl
  | cons c rest =>
    unfold scanFraction
    split
    · next heq =>
      obtain ⟨rfl, -⟩ := List.cons.inj heq
      exact absurd rfl (h '.' rfl).2.1
    · rfl

theorem scanExponent_of_ends (h : EndsNumber rest) : scanExponent rest = some ([], rest) := by
  cases rest with
  | nil => rfl
  | cons c rest =>
    rw [scanExponent, if_neg]
    rintro (hc | hc)
    · exact (h c rfl).2.2.1 hc
    · exact (h c rfl).2.2.2 hc

theorem scanMagnitude_toDigits (negative : Bool) (n : ℕ) (h : EndsNumber rest) :
    scanMagnitude negative (Nat.toDigits 10 n ++ rest)
      = some (numberOfToken negative (Nat.toDigits 10 n) [] [], rest) := by
  simp only [scanMagnitude, scanInteger_toDigits n h, scanFraction_of_ends h,
    scanExponent_of_ends h, Option.bind_eq_bind, Option.bind_some]
  rfl

/-- The spelling of an integer: its digits, after a sign if it is negative. -/
theorem text_int (n : ℤ) : (Number.int n).text
    = if n < 0 then '-' :: Nat.toDigits 10 n.natAbs else Nat.toDigits 10 n.natAbs := by
  show (toString n).toList = _
  cases n with
  | ofNat n =>
    rw [if_neg (by simp)]
    show (Nat.repr n).toList = _
    rw [Nat.repr_eq_ofList_toDigits, String.toList_ofList]
    rfl
  | negSucc n =>
    rw [if_pos (Int.negSucc_lt_zero n)]
    show ("-" ++ Nat.repr (n + 1)).toList = _
    rw [Nat.repr_eq_ofList_toDigits, String.toList_append,
      String.toList_ofList (l := Nat.toDigits 10 (n + 1))]
    rfl

/-- The digits of a number are read as its digits, and not as its sign. -/
theorem scanNumber_toDigits (n : ℕ) (h : EndsNumber rest) :
    scanNumber (Nat.toDigits 10 n ++ rest) = some (.int n, rest) := by
  have hmagnitude : scanMagnitude false (Nat.toDigits 10 n ++ rest) = some (.int n, rest) := by
    rw [scanMagnitude_toDigits false n h, numberOfToken, if_pos ⟨rfl, rfl⟩,
      if_neg Bool.false_ne_true, Nat.ofDigitChars_ten_toDigits]
  cases hdigits : Nat.toDigits 10 n with
  | nil => exact absurd hdigits Nat.toDigits_ne_nil
  | cons c cs =>
    have hdigit : c.isDigit = true :=
      Nat.isDigit_of_mem_toDigits (b := 10) (n := n) (by decide) (by decide) (by simp [hdigits])
    rw [hdigits] at hmagnitude
    rw [List.cons_append] at hmagnitude ⊢
    unfold scanNumber
    split
    · next heq =>
      obtain ⟨rfl, -⟩ := List.cons.inj heq
      cases hdigit
    · exact hmagnitude

/-- The token of an integer is read back. -/
theorem scanNumber_text {n : Number} (hn : ∀ token, n ≠ .float token) (h : EndsNumber rest) :
    scanNumber (n.text ++ rest) = some (n, rest) := by
  cases n with
  | float token => exact absurd rfl (hn token)
  | int n =>
    rw [text_int]
    by_cases hneg : n < 0
    · rw [if_pos hneg]
      show scanMagnitude true (Nat.toDigits 10 n.natAbs ++ rest) = _
      rw [scanMagnitude_toDigits true _ h, numberOfToken, if_pos ⟨rfl, rfl⟩, if_pos rfl,
        Nat.ofDigitChars_ten_toDigits]
      congr 3
      omega
    · rw [if_neg hneg, scanNumber_toDigits _ h]
      congr 3
      omega

/-! ### Reading trees back -/

theorem skipBlank_cons (h : isBlank c = false) (cs : List Char) :
    skipBlank (c :: cs) = c :: cs := by
  simp [skipBlank, h]

/-- A character that a text of a value starts with. -/
structure StartsValue (c : Char) : Prop where
  visible : isBlank c = false
  open_ : c ≠ ']'

/-- The text of a number starts with a digit or with a sign. -/
theorem exists_text_cons {n : Number} (hn : ∀ token, n ≠ .float token) :
    ∃ c cs, n.text = c :: cs ∧ (c.isDigit = true ∨ c = '-') := by
  cases n with
  | float token => exact absurd rfl (hn token)
  | int n =>
    rw [text_int]
    split
    · exact ⟨'-', _, rfl, .inr rfl⟩
    · cases hdigits : Nat.toDigits 10 n.natAbs with
      | nil => exact absurd hdigits Nat.toDigits_ne_nil
      | cons c cs =>
        refine ⟨c, cs, rfl, .inl ?_⟩
        exact Nat.isDigit_of_mem_toDigits (b := 10) (n := n.natAbs) (by decide) (by decide)
          (by simp [hdigits])

/-- What a number starts with is none of the characters that other values start with. -/
theorem ne_of_isDigit_or_sign (h : c.isDigit = true ∨ c = '-') :
    isBlank c = false ∧ ∀ d ∈ ['n', 't', 'f', '"', '[', '{', ']'], c ≠ d := by
  rcases h with h | rfl
  · constructor
    · refine Bool.eq_false_iff.mpr fun hblank => ?_
      simp only [isBlank, Bool.or_eq_true, decide_eq_true_eq] at hblank
      rcases hblank with ((rfl | rfl) | rfl) | rfl <;> cases h
    · rintro d hd rfl
      simp only [List.mem_cons, List.not_mem_nil, or_false] at hd
      rcases hd with rfl | rfl | rfl | rfl | rfl | rfl | rfl <;> cases h
  · refine ⟨by decide, fun d hd => ?_⟩
    simp only [List.mem_cons, List.not_mem_nil, or_false] at hd
    rcases hd with rfl | rfl | rfl | rfl | rfl | rfl | rfl <;> decide

section ReadBack

variable [StringText]

theorem exists_render_cons (h : v.all Value.isIntegral = true) :
    ∃ c cs, render v = c :: cs ∧ StartsValue c := by
  cases v with
  | null => exact ⟨'n', _, rfl, rfl, by decide⟩
  | bool b => cases b with
    | true => exact ⟨'t', _, rfl, rfl, by decide⟩
    | false => exact ⟨'f', _, rfl, rfl, by decide⟩
  | string s => exact ⟨'"', _, rfl, rfl, by decide⟩
  | array vs => exact ⟨'[', _, rfl, rfl, by decide⟩
  | object fs => exact ⟨'{', _, rfl, rfl, by decide⟩
  | number n =>
    have hn : ∀ token, n ≠ .float token := by
      rintro token rfl
      cases h
    obtain ⟨c, cs, htext, hc⟩ := exists_text_cons hn
    obtain ⟨hblank, hne⟩ := ne_of_isDigit_or_sign hc
    exact ⟨c, cs, htext, hblank, hne ']' (by decide)⟩

omit [StringText] in
/-- An array that does not end at once has an element. -/
theorem parseArray_of_starts (p : Parser Value) (n : ℕ) (hc : StartsValue c) (cs : List Char) :
    parseArray p n (c :: cs) = (parseElements p n (c :: cs)).map fun r => (.array r.1, r.2) := by
  rw [parseArray, skipBlank_cons hc.visible]
  split
  · next heq =>
    obtain ⟨rfl, -⟩ := List.cons.inj heq
    exact absurd rfl hc.open_
  · rfl

/-- An object that does not end at once has a key. -/
theorem parseObject_quote (p : Parser Value) (n : ℕ) (cs : List Char) :
    parseObject p n ('"' :: cs) =
      (parseFields p n [] ('"' :: cs)).map fun r => (.object r.1, r.2) := by
  rw [parseObject, skipBlank_cons (c := '"') rfl]
  rfl

omit [StringText] in
/-- An element before a comma is followed by others. -/
theorem parseElements_comma {rest' : List Char}
    {vs : List Value} (h : p cs = some (v, ',' :: rest))
    (hrest : parseElements p n rest = some (vs, rest')) :
    parseElements p (n + 1) cs = some (v :: vs, rest') := by
  simp only [parseElements, h, Option.bind_eq_bind, Option.bind_some, skipBlank_cons (c := ',') rfl,
    hrest]
  rfl

omit [StringText] in
/-- An element before a bracket is the last one. -/
theorem parseElements_close
    (h : p cs = some (v, ']' :: rest)) : parseElements p (n + 1) cs = some ([v], rest) := by
  simp only [parseElements, h, Option.bind_eq_bind, Option.bind_some, skipBlank_cons (c := ']') rfl]
  rfl

/-- A field before a comma is set, and followed by others. -/
theorem parseFields_comma (hkey : parseKey cs = some (key, cs'))
    (hv : p cs' = some (v, ',' :: rest)) :
    parseFields p (n + 1) fields cs = parseFields p n (fields.insert key v) rest := by
  simp only [parseFields, hkey, hv, Option.bind_eq_bind, Option.bind_some,
    skipBlank_cons (c := ',') rfl]

/-- A field before a brace is the last one. -/
theorem parseFields_close (hkey : parseKey cs = some (key, cs'))
    (hv : p cs' = some (v, '}' :: rest)) :
    parseFields p (n + 1) fields cs = some (fields.insert key v, rest) := by
  simp only [parseFields, hkey, hv, Option.bind_eq_bind, Option.bind_some,
    skipBlank_cons (c := '}') rfl]
  rfl

omit [StringText] in
/-- A new key is set after the others. -/
theorem Map.insert_of_notMem {m : Map} (h : key ∉ m.map Prod.fst) (v : Value) :
    m.insert key v = m ++ [(key, v)] := by
  induction m with
  | nil => rfl
  | cons field m ih =>
    obtain ⟨k, w⟩ := field
    simp only [List.map_cons, List.mem_cons, not_or] at h
    rw [Map.insert, if_neg (Ne.symm h.1), ih h.2, List.cons_append]

/-- What is not nested is read by its first character. -/
theorem parseValue_scalar (hblank : isBlank c = false)
    (harray : c ≠ '[') (hobject : c ≠ '{') : parseValue (n + 1) depth (c :: cs) =
      parseScalar c cs := by
  simp only [parseValue, skipBlank_cons hblank, if_neg harray, if_neg hobject]

theorem parseValue_array (hdepth : 1 < depth) (cs : List Char) :
    parseValue (n + 1) depth ('[' :: cs) = parseArray (parseValue n (depth - 1)) n cs := by
  simp only [parseValue, skipBlank_cons (c := '[') rfl, if_true, if_neg (not_le.mpr hdepth)]

theorem parseValue_object (hdepth : 1 < depth) (cs : List Char) :
    parseValue (n + 1) depth ('{' :: cs) = parseObject (parseValue n (depth - 1)) n cs := by
  simp only [parseValue,
    skipBlank_cons (c := '{') rfl, Char.reduceEq, if_false, if_true, if_neg (not_le.mpr hdepth)]

/-- The token of a number is read as a number. -/
theorem parseValue_number {n : Number} (hn : ∀ token, n ≠ .float token) (fuel depth : ℕ)
    (hrest : EndsNumber rest) :
    parseValue (fuel + 1) depth (n.text ++ rest) = some (.number n, rest) := by
  obtain ⟨c, cs, htext, hc⟩ := exists_text_cons hn
  obtain ⟨hblank, hne⟩ := ne_of_isDigit_or_sign hc
  have hscan := scanNumber_text hn hrest
  rw [htext, List.cons_append] at hscan ⊢
  rw [parseValue_scalar hblank (hne '[' (by decide)) (hne '{' (by decide)), parseScalar,
    if_neg (hne 'n' (by decide)), if_neg (hne 't' (by decide)), if_neg (hne 'f' (by decide)),
    if_neg (hne '"' (by decide)), hscan]
  rfl

theorem parseKey_writeString [LawfulStringText] (key : String) (rest : List Char) :
    parseKey (writeString key ++ ':' :: rest) = some (key, rest) := by
  simp only [parseKey, writeString, List.cons_append, skipBlank_cons (c := '"') rfl,
    LawfulStringText.unescape_escape, Option.bind_eq_bind, Option.bind_some,
    skipBlank_cons (c := ':') rfl]
  rfl

theorem render_array_append (vs : List Value) (rest : List Char) :
    render (.array vs) ++ rest = '[' :: (renderElements vs ++ ']' :: rest) := by
  simp [render]

theorem render_object_append (fs : Map) (rest : List Char) :
    render (.object fs) ++ rest = '{' :: (joinFields (renderFields fs) ++ '}' :: rest) := by
  simp [render]

mutual

/-- The parser reads back what was rendered, in front of any text that does not continue a number.
-/
theorem exists_parseValue_render [LawfulStringText] :
    ∀ (v : Value) (depth : ℕ) (rest : List Char),
    v.all Value.isIntegral = true → v.all Value.isKeyed = true → v.depth < depth → EndsNumber rest →
    ∃ n, parseValue n depth (render v ++ rest) = some (v, rest)
  | .null, _, _, _, _, _, _ => ⟨1, parseValue_scalar rfl (by decide) (by decide)⟩
  | .bool true, _, _, _, _, _, _ => ⟨1, parseValue_scalar rfl (by decide) (by decide)⟩
  | .bool false, _, _, _, _, _, _ => ⟨1, parseValue_scalar rfl (by decide) (by decide)⟩
  | .number n, depth, rest, hintegral, _, _, hrest => by
    refine ⟨1, parseValue_number ?_ 0 depth hrest⟩
    rintro token rfl
    cases hintegral
  | .string s, depth, rest, _, _, _, _ => by
    refine ⟨1, (parseValue_scalar rfl (by decide) (by decide)).trans ?_⟩
    show (StringText.unescape (StringText.escape s ++ rest)).map _ = _
    rw [LawfulStringText.unescape_escape]
    rfl
  | .array [], depth, rest, _, _, hdepth, _ => by
    have hlt : 1 < depth := by simpa [Value.depth, Value.depthList] using hdepth
    refine ⟨1, ?_⟩
    rw [render_array_append, parseValue_array hlt, renderElements, List.nil_append, parseArray,
      skipBlank_cons (c := ']') rfl]
    rfl
  | .array (v :: vs), depth, rest, hintegral, hkeyed, hdepth, _ => by
    simp only [Value.depth] at hdepth
    have hinner : Value.depthList (v :: vs) < depth - 1 := by omega
    simp only [Value.all, Bool.and_eq_true] at hintegral hkeyed
    obtain ⟨n, hn⟩ := exists_parseElements_render (v :: vs) _ (by simp) rest hintegral.2 hkeyed.2
      hinner
    obtain ⟨c, cs, htext, hc⟩ := exists_render_cons (v := v) (by
      simp only [Value.allList, Bool.and_eq_true] at hintegral
      exact hintegral.2.1)
    refine ⟨n + 1, ?_⟩
    rw [render_array_append, parseValue_array (by omega)]
    rw [renderElements, htext] at hn ⊢
    simp only [List.cons_append] at hn ⊢
    rw [parseArray_of_starts _ _ hc, hn]
    rfl
  | .object [], depth, rest, _, _, hdepth, _ => by
    have hlt : 1 < depth := by simpa [Value.depth, Value.depthFields] using hdepth
    refine ⟨1, ?_⟩
    rw [render_object_append, parseValue_object hlt, renderFields, joinFields, List.nil_append,
      parseObject, skipBlank_cons (c := '}') rfl]
    rfl
  | .object (f :: fs), depth, rest, hintegral, hkeyed, hdepth, _ => by
    simp only [Value.depth] at hdepth
    have hinner : Value.depthFields (f :: fs) < depth - 1 := by omega
    simp only [Value.all, Bool.and_eq_true] at hintegral hkeyed
    have hnodup : (([] ++ f :: fs).map Prod.fst).Nodup := by simpa [Value.isKeyed] using hkeyed.1
    obtain ⟨n, hn⟩ := exists_parseFields_render (f :: fs) _ (by simp) [] rest hintegral.2 hkeyed.2
      hnodup hinner
    refine ⟨n + 1, ?_⟩
    rw [render_object_append, parseValue_object (by omega)]
    obtain ⟨key, v⟩ := f
    simp only [renderFields, joinFields, writeString, List.cons_append, List.nil_append] at hn ⊢
    rw [parseObject_quote, hn]
    rfl

/-- The parser reads back the elements of an array. -/
theorem exists_parseElements_render [LawfulStringText] :
    ∀ (vs : List Value) (depth : ℕ), vs ≠ [] → ∀ rest : List Char,
    Value.allList Value.isIntegral vs = true → Value.allList Value.isKeyed vs = true →
    Value.depthList vs < depth →
    ∃ n, parseElements (parseValue n depth) n (renderElements vs ++ ']' :: rest) = some (vs, rest)
  | [], _, hne, _, _, _, _ => absurd rfl hne
  | [v], depth, _, rest, hintegral, hkeyed, hdepth => by
    simp only [Value.allList, Bool.and_eq_true] at hintegral hkeyed
    simp only [Value.depthList] at hdepth
    obtain ⟨n, hn⟩ := exists_parseValue_render v depth (']' :: rest) hintegral.1 hkeyed.1
      (by omega) (endsNumber_cons (by decide) _)
    refine ⟨n + 1, parseElements_close ?_⟩
    rw [renderElements, renderTail, List.append_nil]
    exact parseValue_extends (Nat.le_succ n) le_rfl _ _ hn
  | v :: w :: vs, depth, _, rest, hintegral, hkeyed, hdepth => by
    simp only [Value.allList, Bool.and_eq_true] at hintegral hkeyed
    simp only [Value.depthList] at hdepth
    obtain ⟨n, hn⟩ := exists_parseValue_render v depth
      (',' :: (renderElements (w :: vs) ++ ']' :: rest)) hintegral.1 hkeyed.1 (by omega)
      (endsNumber_cons (by decide) _)
    obtain ⟨m, hm⟩ := exists_parseElements_render (w :: vs) depth (by simp) rest
      (by simpa [Value.allList] using hintegral.2) (by simpa [Value.allList] using hkeyed.2)
      (by simp only [Value.depthList]; omega)
    have hle : max n m ≤ max n m + 1 := Nat.le_succ _
    have helements := parseElements_extends
      (parseValue_extends ((le_max_right n m).trans hle) le_rfl)
      (le_max_right n m) _ _ hm
    refine ⟨max n m + 1, parseElements_comma ?_ helements⟩
    rw [renderElements, renderTail]
    simp only [List.append_assoc, List.cons_append]
    simpa only [renderElements, List.append_assoc] using
      parseValue_extends ((le_max_left n m).trans hle) le_rfl _ _ hn

/-- The parser reads back the fields of an object, after those it has. -/
theorem exists_parseFields_render [LawfulStringText] :
    ∀ (fs : Map) (depth : ℕ), fs ≠ [] → ∀ (acc : Map) (rest : List Char),
    Value.allFields Value.isIntegral fs = true → Value.allFields Value.isKeyed fs = true →
    ((acc ++ fs).map Prod.fst).Nodup → Value.depthFields fs < depth →
    ∃ n, parseFields (parseValue n depth) n acc (joinFields (renderFields fs) ++ '}' :: rest)
      = some (acc ++ fs, rest)
  | [], _, hne, _, _, _, _, _, _ => absurd rfl hne
  | [(key, v)], depth, _, acc, rest, hintegral, hkeyed, hnodup, hdepth => by
    simp only [Value.allFields, Bool.and_eq_true] at hintegral hkeyed
    simp only [Value.depthFields] at hdepth
    obtain ⟨n, hn⟩ := exists_parseValue_render v depth ('}' :: rest) hintegral.1 hkeyed.1
      (by omega) (endsNumber_cons (by decide) _)
    have hfresh : key ∉ acc.map Prod.fst := by
      intro hmem
      rw [List.map_append, List.nodup_append] at hnodup
      exact hnodup.2.2 key hmem key (by simp) rfl
    refine ⟨n + 1, ?_⟩
    rw [← Map.insert_of_notMem hfresh v]
    have hvalue := parseValue_extends (Nat.le_succ n) le_rfl _ _ hn
    refine parseFields_close ?_ hvalue
    simpa only [renderFields, joinFields, joinTail, List.append_nil, List.append_assoc,
      List.cons_append] using parseKey_writeString key (render v ++ '}' :: rest)
  | (key, v) :: g :: fs, depth, _, acc, rest, hintegral, hkeyed, hnodup, hdepth => by
    simp only [Value.allFields, Bool.and_eq_true] at hintegral hkeyed
    simp only [Value.depthFields] at hdepth
    have hfresh : key ∉ acc.map Prod.fst := by
      intro hmem
      rw [List.map_append, List.nodup_append] at hnodup
      exact hnodup.2.2 key hmem key (by simp) rfl
    obtain ⟨n, hn⟩ := exists_parseValue_render v depth
      (',' :: (joinFields (renderFields (g :: fs)) ++ '}' :: rest)) hintegral.1 hkeyed.1
      (by omega) (endsNumber_cons (by decide) _)
    obtain ⟨m, hm⟩ := exists_parseFields_render (g :: fs) depth (by simp)
      (acc ++ [(key, v)]) rest (by simpa [Value.allFields] using hintegral.2)
      (by simpa [Value.allFields] using hkeyed.2) (by simpa using hnodup)
      (by simp only [Value.depthFields]; omega)
    have hle : max n m ≤ max n m + 1 := Nat.le_succ _
    refine ⟨max n m + 1, ?_⟩
    have hvalue := parseValue_extends ((le_max_left n m).trans hle) le_rfl _ _ hn
    have hkey : parseKey (joinFields (renderFields ((key, v) :: g :: fs)) ++ '}' :: rest)
        = some (key, render v ++ ',' :: (joinFields (renderFields (g :: fs)) ++ '}' :: rest)) := by
      obtain ⟨key', v'⟩ := g
      simpa only [renderFields, joinFields, joinTail, List.append_assoc, List.cons_append] using
        parseKey_writeString key _
    have hrest := parseFields_extends (parseValue_extends ((le_max_right n m).trans hle) le_rfl)
      (le_max_right n m) _ _ _ hm
    rw [parseFields_comma hkey hvalue, Map.insert_of_notMem hfresh v]
    simpa using hrest

end

/-- The text of a tree parses to the tree. -/
theorem parses_render [LawfulStringText] (hintegral : v.all Value.isIntegral = true)
    (hkeyed : v.all Value.isKeyed = true) {d : ℕ} (hd : v.depth < d) : Parses d (render v) v := by
  obtain ⟨n, hn⟩ := exists_parseValue_render v d [] hintegral hkeyed hd endsNumber_nil
  rw [List.append_nil] at hn
  refine ⟨n, ?_⟩
  simp only [parseText, hn, Option.bind_eq_bind, Option.bind_some]
  rfl

/-- Trees with the same text are the same. -/
theorem eq_of_render_eq [LawfulStringText] {w : Value} (hv : v.all Value.isIntegral = true)
    (hv' : v.all Value.isKeyed = true) (hw : w.all Value.isIntegral = true)
    (hw' : w.all Value.isKeyed = true) (h : render v = render w) : v = w := by
  have hparse := parses_render hv hv' (Nat.lt_succ_self v.depth)
  rw [h] at hparse
  exact hparse.unique (parses_render hw hw' (Nat.lt_succ_self w.depth))

end ReadBack

end Zeta
