import Mathlib.Computability.Language

/-!
# Shell globs

The meaning of a shell glob, stated without a matcher. A pattern is first read as a list of tokens:
a star, a question mark, a bracket expression, or a character that stands for itself. Each token has
a language, and the pattern's is their product.

Reading is where the special cases are. A bracket expression needs content, so a closing bracket
right after the opening one (or after the exclamation mark of a negation) is content, and an opening
bracket that is never closed stands for itself. Inside, `x-y` is a range from left to right, a range
with its ends the wrong way round holds nothing, and a hyphen that has no character on one side is a
character. `Reads` and `Items` state this as relations; that they are functions is proved
(`exists_reads_iff`).
-/

namespace Glob

variable {negated : Bool} {c : Char} {after content content' rest rest' w : List Char}

/-- A character or a range inside a bracket expression. -/
inductive Item where
  | single (x : Char)
  | range (first last : Char)
  deriving DecidableEq, Repr

/-- What a pattern is made of. -/
inductive Token where
  | star
  | any
  | class_ (negated : Bool) (items : List Item)
  | literal (x : Char)
  deriving DecidableEq, Repr

/-- Whether an item holds a character. -/
def Item.Holds (c : Char) : Item → Prop
  | .single x => x = c
  | .range first last => first ≤ c ∧ c ≤ last

/-- The texts that a token matches. -/
def Token.language : Token → Language Char
  | .star => Set.univ
  | .any => {w | ∃ c, w = [c]}
  | .class_ negated items => {w | ∃ c, w = [c] ∧ ((∃ item ∈ items, item.Holds c) ↔ negated = false)}
  | .literal x => {w | w = [x]}

/-- The texts that a list of tokens matches. -/
def language (tokens : List Token) : Language Char := (tokens.map Token.language).prod

/-! ### Reading a pattern -/

/-- The items that the content of a bracket expression is read as. -/
inductive Items : List Char → List Item → Prop
  | nil : Items [] []
  | range (first last : Char) {rest : List Char} {items : List Item} (h : Items rest items) :
      Items (first :: '-' :: last :: rest) (.range first last :: items)
  | single (x : Char) {rest : List Char} {items : List Item}
      (hrange : ∀ last rest', rest ≠ '-' :: last :: rest') (h : Items rest items) :
      Items (x :: rest) (.single x :: items)

/-- What follows an opening bracket is the content of a bracket expression, its closing bracket and
the rest of the pattern. The first character is content whatever it is. -/
structure Closes (after content rest : List Char) : Prop where
  split : after = content ++ ']' :: rest
  nonempty : content ≠ []
  first : ']' ∉ content.tail

/-- What follows an opening bracket is a bracket expression, and how it is to be taken. -/
inductive Bracket : List Char → Bool → List Char → List Char → Prop
  | plain {after content rest : List Char} (hmark : after.head? ≠ some '!')
      (h : Closes after content rest) : Bracket after false content rest
  | negated {after content rest : List Char} (h : Closes after content rest) :
      Bracket ('!' :: after) true content rest

/-- The tokens that a pattern is read as. -/
inductive Reads : List Char → List Token → Prop
  | nil : Reads [] []
  | star {pattern : List Char} {tokens : List Token} (h : Reads pattern tokens) :
      Reads ('*' :: pattern) (.star :: tokens)
  | any {pattern : List Char} {tokens : List Token} (h : Reads pattern tokens) :
      Reads ('?' :: pattern) (.any :: tokens)
  | class_ {after content rest : List Char} {negated : Bool} {items : List Item}
    {tokens : List Token}
      (hbracket : Bracket after negated content rest) (hitems : Items content items)
      (h : Reads rest tokens) : Reads ('[' :: after) (.class_ negated items :: tokens)
  | unterminated {after : List Char} {tokens : List Token}
      (hopen : ∀ negated content rest, ¬Bracket after negated content rest)
      (h : Reads after tokens) :
      Reads ('[' :: after) (.literal '[' :: tokens)
  | literal {x : Char} {pattern : List Char} {tokens : List Token} (hstar : x ≠ '*')
    (hany : x ≠ '?')
      (hopen : x ≠ '[') (h : Reads pattern tokens) : Reads (x :: pattern) (.literal x :: tokens)

/-! ### Every pattern is read in one way -/

theorem exists_items : ∀ content : List Char, ∃ items, Items content items
  | [] => ⟨[], .nil⟩
  | [x] => ⟨[.single x], .single x (by simp) .nil⟩
  | [x, y] => by
    obtain ⟨items, h⟩ := exists_items [y]
    exact ⟨.single x :: items, .single x (by simp) h⟩
  | x :: y :: z :: rest => by
    by_cases hy : y = '-'
    · subst hy
      obtain ⟨items, h⟩ := exists_items rest
      exact ⟨.range x z :: items, .range x z h⟩
    · obtain ⟨items, h⟩ := exists_items (y :: z :: rest)
      exact ⟨.single x :: items, .single x (fun last rest' he => hy (List.cons.inj he).1) h⟩

theorem Items.unique {items items' : List Item} (h : Items content items)
    (h' : Items content items') : items = items' := by
  induction h generalizing items' with
  | nil =>
    cases h'
    rfl
  | range first last h ih =>
    cases h' with
    | range _ _ h' => rw [ih h']
    | single _ hrange _ => exact absurd rfl (hrange last _)
  | single x hrange h ih =>
    cases h' with
    | range _ last _ => exact absurd rfl (hrange last _)
    | single _ _ h' => rw [ih h']

/-- A text has one first occurrence of a character. -/
theorem eq_of_append_cons {xs ys : List Char} (hx : c ∉ xs) (hy : c ∉ ys)
    (h : xs ++ c :: rest = ys ++ c :: rest') : xs = ys ∧ rest = rest' := by
  induction xs generalizing ys with
  | nil =>
    cases ys with
    | nil => exact ⟨rfl, (List.cons.inj h).2⟩
    | cons y ys => exact absurd ((List.cons.inj h).1 ▸ List.mem_cons_self) hy
  | cons x xs ih =>
    cases ys with
    | nil => exact absurd ((List.cons.inj h).1 ▸ List.mem_cons_self) hx
    | cons y ys =>
      obtain ⟨rfl, htail⟩ := List.cons.inj h
      obtain ⟨rfl, rfl⟩ := ih (List.not_mem_of_not_mem_cons hx) (List.not_mem_of_not_mem_cons hy)
        htail
      exact ⟨rfl, rfl⟩

/-- The content of a bracket expression ends at the first closing bracket that may end it. -/
theorem Closes.unique (h : Closes after content rest) (h' : Closes after content' rest') :
    content = content' ∧ rest = rest' := by
  obtain ⟨x, xs, rfl⟩ := List.exists_cons_of_ne_nil h.nonempty
  obtain ⟨y, ys, rfl⟩ := List.exists_cons_of_ne_nil h'.nonempty
  have hsplit := h.split.symm.trans h'.split
  simp only [List.cons_append, List.cons.injEq] at hsplit
  obtain ⟨rfl, htail⟩ := hsplit
  have hx : ']' ∉ xs := h.first
  have hy : ']' ∉ ys := h'.first
  obtain ⟨rfl, rfl⟩ := eq_of_append_cons hx hy htail
  exact ⟨rfl, rfl⟩

theorem Bracket.unique {negated' : Bool} (h : Bracket after negated content rest)
    (h' : Bracket after negated' content' rest') :
    negated = negated' ∧ content = content' ∧ rest = rest' := by
  cases h with
  | plain hmark h =>
    cases h' with
    | plain _ h' => exact ⟨rfl, h.unique h'⟩
    | negated _ => exact absurd rfl hmark
  | negated h =>
    cases h' with
    | plain hmark _ => exact absurd rfl hmark
    | negated h' => exact ⟨rfl, h.unique h'⟩

theorem Bracket.length_lt (h : Bracket after negated content rest) :
    rest.length < after.length := by
  cases h with
  | plain _ h =>
    rw [h.split]
    simp
    omega
  | negated h =>
    rw [h.split]
    simp
    omega

/-- Some tokens are what a pattern is read as. -/
theorem exists_reads (pattern : List Char) : ∃ tokens, Reads pattern tokens := by
  induction hn : pattern.length using Nat.strong_induction_on generalizing pattern with
  | _ n ih =>
    subst hn
    cases pattern with
    | nil => exact ⟨[], .nil⟩
    | cons x pattern =>
      obtain ⟨tokens, h⟩ := ih pattern.length (by simp) pattern rfl
      by_cases hstar : x = '*'
      · subst hstar
        exact ⟨_, .star h⟩
      · by_cases hany : x = '?'
        · subst hany
          exact ⟨_, .any h⟩
        · by_cases hopen : x = '['
          · subst hopen
            by_cases hclosed : ∃ negated content rest, Bracket pattern negated content rest
            · obtain ⟨negated, content, rest, hbracket⟩ := hclosed
              obtain ⟨items, hitems⟩ := exists_items content
              have hlt : rest.length < (('[' : Char) :: pattern).length :=
                hbracket.length_lt.trans (Nat.lt_succ_self _)
              obtain ⟨tokens', h'⟩ := ih rest.length hlt rest rfl
              exact ⟨_, .class_ hbracket hitems h'⟩
            · exact ⟨_, .unterminated (fun negated content rest hbracket =>
                hclosed ⟨negated, content, rest, hbracket⟩) h⟩
          · exact ⟨_, .literal hstar hany hopen h⟩

/-- No other tokens are. -/
theorem Reads.unique {pattern : List Char} {tokens tokens' : List Token} (h : Reads pattern tokens)
    (h' : Reads pattern tokens') : tokens = tokens' := by
  induction h generalizing tokens' with
  | nil =>
    cases h'
    rfl
  | star h ih =>
    cases h' with
    | star h' => rw [ih h']
    | literal hstar _ _ _ => exact absurd rfl hstar
  | any h ih =>
    cases h' with
    | any h' => rw [ih h']
    | literal _ hany _ _ => exact absurd rfl hany
  | class_ hbracket hitems h ih =>
    cases h' with
    | class_ hbracket' hitems' h' =>
      obtain ⟨rfl, rfl, rfl⟩ := hbracket.unique hbracket'
      rw [ih h', hitems.unique hitems']
    | unterminated hopen _ => exact absurd hbracket (hopen _ _ _)
    | literal _ _ hopen _ => exact absurd rfl hopen
  | unterminated hopen h ih =>
    cases h' with
    | class_ hbracket _ _ => exact absurd hbracket (hopen _ _ _)
    | unterminated _ h' => rw [ih h']
    | literal _ _ _ h' => rw [ih h']
  | literal hstar hany hopen h ih =>
    cases h' with
    | star _ => exact absurd rfl hstar
    | any _ => exact absurd rfl hany
    | class_ _ _ _ => exact absurd rfl hopen
    | unterminated _ _ => exact absurd rfl hopen
    | literal _ _ _ h' => rw [ih h']

/-- **Every pattern is read in exactly one way.** -/
theorem exists_reads_iff (pattern : List Char) :
    ∃ tokens, ∀ other, Reads pattern other ↔ other = tokens := by
  obtain ⟨tokens, h⟩ := exists_reads pattern
  refine ⟨tokens, fun other => ⟨fun hother => hother.unique h, ?_⟩⟩
  rintro rfl
  exact h

/-! ### The language of a list of tokens -/

theorem mem_language_nil : w ∈ language [] ↔ w = [] := by
  simp [language, Language.mem_one]

theorem mem_language_cons {token : Token} {tokens : List Token} :
    w ∈ language (token :: tokens) ↔ ∃ a ∈ token.language, ∃ b ∈ language tokens, a ++ b = w := by
  simp only [language, List.map_cons, List.prod_cons, Language.mem_mul]

/-- A star takes some of the text, which may be nothing. -/
theorem mem_language_star {tokens : List Token} :
    w ∈ language (.star :: tokens) ↔ ∃ a b, b ∈ language tokens ∧ a ++ b = w := by
  rw [mem_language_cons]
  exact ⟨fun ⟨a, _, b, hb, he⟩ => ⟨a, b, hb, he⟩, fun ⟨a, b, hb, he⟩ => ⟨a, trivial, b, hb, he⟩⟩

theorem mem_language_star_nil {tokens : List Token} :
    [] ∈ language (.star :: tokens) ↔ [] ∈ language tokens := by
  rw [mem_language_star]
  constructor
  · rintro ⟨a, b, hb, he⟩
    obtain ⟨-, rfl⟩ := List.append_eq_nil_iff.mp he
    exact hb
  · exact fun h => ⟨[], [], h, rfl⟩

/-- A star takes nothing, or one character more. -/
theorem mem_language_star_cons {tokens : List Token} :
    c :: w ∈ language (.star :: tokens) ↔
      c :: w ∈ language tokens ∨ w ∈ language (.star :: tokens) := by
  simp only [mem_language_star]
  constructor
  · rintro ⟨a, b, hb, he⟩
    cases a with
    | nil => exact .inl (he ▸ hb)
    | cons x a => exact .inr ⟨a, b, hb, (List.cons.inj he).2⟩
  · rintro (h | ⟨a, b, hb, he⟩)
    · exact ⟨[], c :: w, h, rfl⟩
    · exact ⟨c :: a, b, hb, by rw [← he, List.cons_append]⟩

section One

variable {token : Token} {p : Char → Prop} {tokens : List Token}

/-- Every other token takes one character. -/
theorem mem_language_one_cons (h : token.language = {w | ∃ c, w = [c] ∧ p c}) :
    c :: w ∈ language (token :: tokens) ↔ p c ∧ w ∈ language tokens := by
  rw [mem_language_cons, h]
  constructor
  · rintro ⟨_, ⟨x, rfl, hx⟩, b, hb, he⟩
    obtain ⟨rfl, rfl⟩ := List.cons.inj he
    exact ⟨hx, hb⟩
  · rintro ⟨hc, hw⟩
    exact ⟨[c], ⟨c, rfl, hc⟩, w, hw, rfl⟩

theorem nil_notMem_language_one (h : token.language = {w | ∃ c, w = [c] ∧ p c}) :
    [] ∉ language (token :: tokens) := by
  rw [mem_language_cons, h]
  rintro ⟨_, ⟨x, rfl, -⟩, b, -, he⟩
  cases he

end One

theorem language_any : Token.any.language = {w | ∃ c, w = [c] ∧ True} := by
  ext w
  simp [Token.language]

theorem language_class (negated : Bool) (items : List Item) : (Token.class_ negated items).language
    = {w | ∃ c, w = [c] ∧ ((∃ item ∈ items, item.Holds c) ↔ negated = false)} := rfl

theorem language_literal (x : Char) : (Token.literal x).language = {w | ∃ c, w = [c] ∧ x = c} := by
  ext w
  simp [Token.language]

end Glob
