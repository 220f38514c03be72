import ZetaRuntime.Dispatch.Routing
import ZetaRuntime.Library.Glob

/-!
# Matching a glob with a memo table

The source matches a pattern by indices into the pattern and the candidate and keeps the answer of
each pair of indices in a table. `shellGlobMatches` is that algorithm. It is shown to give the
answer of `globMatches`, the recursion on the suffixes that the indices stand for, which is what
routing uses in the rest of the development, and `globMatches` to decide the language of the tokens
a pattern is read as.

The table cannot change an answer because every entry of it is the answer of the recursion without
it (`Memo.Sound`). The matcher returns on every input because each call is for a pair of indices
that leaves less of the two texts.

## Main definitions

* `shellGlobMatches` — the matcher of the source
* `Memo.Sound` — the invariant of its table

## Main results

* `shellGlobMatches_eq` — indices and table do not change the answer
* `shellGlobMatches_iff_mem_language` — the matcher decides the meaning of a pattern
* `fnmatchClass_differs` — where `fnmatchcase` gives another answer
-/

namespace Zeta

variable {found negated : Bool} {candidate : Char} {a after b content pattern rest : List Char}
  {index start stop : ℕ}

/-! ### Bracket expressions by index -/

/-- The first index at or after this one with a closing bracket, or the end of the pattern. -/
def skipToClosing (pattern : List Char) (index : ℕ) : ℕ :=
  match _hindex : pattern[index]? with
  | none => index
  | some c => if c = ']' then index else skipToClosing pattern (index + 1)
termination_by pattern.length - index
decreasing_by
  have hlt := (List.getElem?_eq_some_iff.mp _hindex).1
  omega

/-- The loop over the content of a bracket expression that stops before `stop`. -/
def classLoop (pattern : List Char) (stop : ℕ) (candidate : Char) (index : ℕ) (found : Bool) :
    Bool :=
  if index < stop then
    if index + 2 < stop ∧ pattern[index + 1]? = some '-' then
      classLoop pattern stop candidate (index + 3)
        (found || (pattern[index]?.any (· ≤ candidate) && pattern[index + 2]?.any (candidate ≤ ·)))
    else
      classLoop pattern stop candidate (index + 1) (found || pattern[index]?.any (· = candidate))
  else found
termination_by stop - index

/-- Match a candidate against the bracket expression whose content starts here. -/
def classFrom (pattern : List Char) (contentStart : ℕ) (candidate : Char) : Option (ℕ × Bool) :=
  let index := skipToClosing pattern
    (if pattern[contentStart]? = some ']' then contentStart + 1 else contentStart)
  if index = pattern.length ∨ index = contentStart then none
  else some (index, classLoop pattern index candidate contentStart false)

/-- Match a candidate against the bracket expression whose opening bracket is at `start`. -/
def characterClassAt (pattern : List Char) (start : ℕ) (candidate : Char) : Option (ℕ × Bool) :=
  if pattern[start + 1]? = some '!' then
    (classFrom pattern (start + 2) candidate).map fun p => (p.1, !p.2)
  else classFrom pattern (start + 1) candidate

theorem le_skipToClosing (pattern : List Char) (index : ℕ) :
    index ≤ skipToClosing pattern index := by
  fun_induction skipToClosing pattern index with
  | case1 => exact Nat.le_refl _
  | case2 => exact Nat.le_refl _
  | case3 index c hindex hc ih => exact (Nat.le_succ index).trans ih

theorem le_of_classFrom {contentStart : ℕ}
    (h : classFrom pattern contentStart candidate = some (stop, found)) : contentStart ≤ stop := by
  simp only [classFrom] at h
  generalize hindex : skipToClosing pattern _ = index at h
  split at h
  · cases h
  · obtain ⟨rfl, -⟩ := Prod.mk.inj (Option.some.inj h)
    refine Nat.le_trans ?_ ((le_skipToClosing _ _).trans_eq hindex)
    split <;> omega

/-- A bracket expression ends after it starts. -/
theorem lt_of_characterClassAt (h : characterClassAt pattern start candidate = some (stop, found)) :
    start < stop := by
  unfold characterClassAt at h
  split at h
  · obtain ⟨⟨stop', found'⟩, hclass, he⟩ := Option.map_eq_some_iff.mp h
    cases he
    have hle := le_of_classFrom hclass
    omega
  · have hle := le_of_classFrom h
    omega

/-! ### The matcher -/

/-- The answers found so far, by the indices they are for. -/
abbrev Memo := List ((ℕ × ℕ) × Bool)

/-- Match what follows an index of the candidate against what follows an index of the pattern. -/
def globSuffixMatches (pattern candidate : List Char) (patternIndex candidateIndex : ℕ)
    (memo : Memo) : Bool × Memo :=
  match memo.lookup (patternIndex, candidateIndex) with
  | some answer => (answer, memo)
  | none =>
    let result :=
      match _hp : pattern[patternIndex]? with
      | none => (decide (candidateIndex = candidate.length), memo)
      | some p =>
        if p = '*' then
          let skipped := globSuffixMatches pattern candidate (patternIndex + 1) candidateIndex memo
          if skipped.1 then skipped
          else if candidateIndex < candidate.length then
            globSuffixMatches pattern candidate patternIndex (candidateIndex + 1) skipped.2
          else skipped
        else
          match _hc : candidate[candidateIndex]? with
          | none => (false, memo)
          | some c =>
            if p = '?' then
              globSuffixMatches pattern candidate (patternIndex + 1) (candidateIndex + 1) memo
            else if p = '[' then
              match _hclass : characterClassAt pattern patternIndex c with
              | some (classEnd, true) =>
                globSuffixMatches pattern candidate (classEnd + 1) (candidateIndex + 1) memo
              | some (_, false) => (false, memo)
              | none =>
                if p = c then
                  globSuffixMatches pattern candidate (patternIndex + 1) (candidateIndex + 1) memo
                else (false, memo)
            else if p = c then
              globSuffixMatches pattern candidate (patternIndex + 1) (candidateIndex + 1) memo
            else (false, memo)
    (result.1, ((patternIndex, candidateIndex), result.1) :: result.2)
termination_by (pattern.length - patternIndex) + (candidate.length - candidateIndex)
decreasing_by
  all_goals have hlt := (List.getElem?_eq_some_iff.mp _hp).1
  · omega
  · omega
  · omega
  · have := lt_of_characterClassAt _hclass
    omega
  · omega
  · omega

/-- Match a candidate against a shell glob. -/
def shellGlobMatches (pattern candidate : String) : Bool :=
  (globSuffixMatches pattern.toList candidate.toList 0 0 []).1

/-! ### Indices stand for suffixes -/

theorem splitOnce_eq_some_iff {c : Char} {xs : List Char} :
    splitOnce c xs = some (a, b) ↔ xs = a ++ c :: b ∧ c ∉ a := by
  induction xs generalizing a with
  | nil => simp [splitOnce]
  | cons x xs ih =>
    unfold splitOnce
    by_cases hx : x = c
    · subst hx
      rw [if_pos rfl]
      constructor
      · rintro ⟨⟩
        exact ⟨rfl, List.not_mem_nil⟩
      · rintro ⟨he, hnot⟩
        cases a with
        | nil => rw [(List.cons.inj he).2]
        | cons y a => exact absurd ((List.cons.inj he).1 ▸ List.mem_cons_self) hnot
    · rw [if_neg hx, Option.map_eq_some_iff]
      constructor
      · rintro ⟨⟨a', b'⟩, hp, he⟩
        cases he
        obtain ⟨rfl, hnot⟩ := ih.mp hp
        exact ⟨rfl, by simpa [Ne.symm hx] using hnot⟩
      · rintro ⟨he, hnot⟩
        cases a with
        | nil => exact absurd (List.cons.inj he).1 hx
        | cons y a =>
          obtain ⟨rfl, rfl⟩ := List.cons.inj he
          exact ⟨(a, b), ih.mpr ⟨rfl, List.not_mem_of_not_mem_cons hnot⟩, rfl⟩

theorem classContains_single {x : Char}
    (h : ∀ last rest', rest ≠ '-' :: last :: rest') :
    classContains candidate (x :: rest) = (x = candidate || classContains candidate rest) := by
  rw [classContains]
  intro last rest' he
  exact h last rest' he

/-- The scan for a closing bracket splits the suffix at the first one. -/
theorem skipToClosing_of_append
    (h : pattern.drop index = a ++ ']' :: b) (ha : ']' ∉ a) :
    skipToClosing pattern index = index + a.length := by
  induction a generalizing index with
  | nil =>
    have hget : pattern[index]? = some ']' := by
      rw [← List.head?_drop, h]
      rfl
    rw [skipToClosing]
    split
    · next hnone => simp [hnone] at hget
    · next c hc =>
      rw [hget] at hc
      rw [if_pos (Option.some.inj hc).symm]
      rfl
  | cons x a ih =>
    have hget : pattern[index]? = some x := by
      rw [← List.head?_drop, h]
      rfl
    have hdrop : pattern.drop (index + 1) = a ++ ']' :: b := by
      rw [← List.tail_drop, h]
      rfl
    rw [skipToClosing]
    split
    · next hnone => simp [hnone] at hget
    · next c hc =>
      obtain rfl := Option.some.inj (hget.symm.trans hc)
      have hx : x ≠ ']' := by
        rintro rfl
        exact ha (.head _)
      rw [if_neg hx, ih hdrop (List.not_mem_of_not_mem_cons ha), List.length_cons]
      omega

/-- Without one it runs to the end. -/
theorem skipToClosing_of_notMem (hle : index ≤ pattern.length)
    (h : ']' ∉ pattern.drop index) : skipToClosing pattern index = pattern.length := by
  fun_induction skipToClosing pattern index with
  | case1 index hnone => exact Nat.le_antisymm hle (List.getElem?_eq_none_iff.mp hnone)
  | case2 index hindex =>
    obtain ⟨hlt, hget⟩ := List.getElem?_eq_some_iff.mp hindex
    exact absurd (by rw [List.drop_eq_getElem_cons hlt, hget]; exact .head _) h
  | case3 index c hindex hc ih =>
    obtain ⟨hlt, hget⟩ := List.getElem?_eq_some_iff.mp hindex
    rw [List.drop_eq_getElem_cons hlt] at h
    exact ih hlt (List.not_mem_of_not_mem_cons h)

theorem drop_take_eq_cons (h : index < stop) (hstop : stop ≤ pattern.length) :
    ∃ x, pattern[index]? = some x ∧
      (pattern.take stop).drop index = x :: (pattern.take stop).drop (index + 1) := by
  have hlt : index < (pattern.take stop).length := by
    rw [List.length_take]
    omega
  refine ⟨(pattern.take stop)[index], ?_, List.drop_eq_getElem_cons hlt⟩
  rw [List.getElem_take, List.getElem?_eq_getElem (Nat.lt_of_lt_of_le h hstop)]

/-- The loop over the content asks whether an item of it holds the candidate. -/
theorem classLoop_eq (hstop : stop ≤ pattern.length) (candidate : Char) (index : ℕ) (found : Bool) :
    classLoop pattern stop candidate index found
      = (found || classContains candidate ((pattern.take stop).drop index)) := by
  fun_induction classLoop pattern stop candidate index found with
  | case1 index found hlt hrange ih =>
    obtain ⟨x, hx, hxs⟩ := drop_take_eq_cons hlt hstop
    obtain ⟨y, hy, hys⟩ := drop_take_eq_cons (Nat.lt_of_succ_lt hrange.1) hstop
    obtain ⟨z, hz, hzs⟩ := drop_take_eq_cons hrange.1 hstop
    obtain rfl := Option.some.inj (hrange.2.symm.trans hy)
    rw [ih, hxs, hys, hzs, classContains, hx, hz]
    simp [Bool.or_assoc]
  | case2 index found hlt hsingle ih =>
    obtain ⟨x, hx, hxs⟩ := drop_take_eq_cons hlt hstop
    rw [ih, hxs, hx, classContains_single]
    · simp [Bool.or_assoc]
    · intro last rest hrest
      have hlen := congrArg List.length hrest
      simp only [List.length_drop, List.length_take, List.length_cons] at hlen
      obtain ⟨y, hy, hys⟩ := drop_take_eq_cons (by omega : index + 1 < stop) hstop
      obtain ⟨rfl, -⟩ := List.cons.inj (hys.symm.trans hrest)
      exact hsingle ⟨by omega, hy⟩
  | case3 index found hge =>
    have hnil : (pattern.take stop).drop index = [] := by
      rw [List.drop_eq_nil_iff, List.length_take]
      omega
    rw [hnil, classContains, Bool.or_false]

/-! ### Bracket expressions -/

theorem splitClass_eq_some_iff :
    splitClass after = some (content, rest) ↔ Glob.Closes after content rest := by
  unfold splitClass
  split
  · next after =>
    rw [Option.map_eq_some_iff]
    constructor
    · rintro ⟨⟨a, b⟩, hp, he⟩
      cases he
      obtain ⟨rfl, hnot⟩ := splitOnce_eq_some_iff.mp hp
      exact ⟨rfl, List.cons_ne_nil _ _, hnot⟩
    · intro h
      obtain ⟨x, xs, rfl⟩ := List.exists_cons_of_ne_nil h.nonempty
      obtain ⟨rfl, htail⟩ := List.cons.inj h.split
      exact ⟨(xs, rest), splitOnce_eq_some_iff.mpr ⟨htail, h.first⟩, rfl⟩
  · next hfirst =>
    rw [splitOnce_eq_some_iff]
    constructor
    · rintro ⟨rfl, hnot⟩
      refine ⟨rfl, ?_, fun hmem => hnot (List.mem_of_mem_tail hmem)⟩
      rintro rfl
      exact hfirst rest rfl
    · intro h
      obtain ⟨x, xs, rfl⟩ := List.exists_cons_of_ne_nil h.nonempty
      have hx : ']' ≠ x := by
        rintro rfl
        exact hfirst _ h.split
      exact ⟨h.split, by simpa [hx] using h.first⟩

theorem characterClass_of_bracket (h : Glob.Bracket after negated content rest) (candidate : Char) :
    characterClass after candidate = some (rest, classContains candidate content != negated) := by
  cases h with
  | plain hmark h =>
    unfold characterClass
    split
    · exact absurd rfl hmark
    · rw [splitClass_eq_some_iff.mpr h]
      simp
  | negated h =>
    simp only [characterClass, splitClass_eq_some_iff.mpr h]
    simp

theorem characterClass_of_unclosed
    (h : ∀ negated content rest, ¬Glob.Bracket after negated content rest) (candidate : Char) :
    characterClass after candidate = none := by
  unfold characterClass
  split
  · next after =>
    rw [Option.map_eq_none_iff, Option.eq_none_iff_forall_ne_some]
    exact fun p hp => h _ _ _ (.negated (splitClass_eq_some_iff.mp hp))
  · next hmark =>
    rw [Option.map_eq_none_iff, Option.eq_none_iff_forall_ne_some]
    refine fun p hp => h _ _ _ (.plain ?_ (splitClass_eq_some_iff.mp hp))
    intro hhead
    obtain ⟨after', rfl⟩ := List.head?_eq_some_iff.mp hhead
    exact hmark after' rfl

theorem classFrom_of_closes (h : Glob.Closes (pattern.drop start) content rest) (candidate : Char) :
    classFrom pattern start candidate
      = some (start + content.length, classContains candidate content) := by
  obtain ⟨hsplit, hne, hfirst⟩ := h
  have hlen := congrArg List.length hsplit
  rw [List.length_drop, List.length_append, List.length_cons] at hlen
  have hcontent : (pattern.take (start + content.length)).drop start = content := by
    rw [List.drop_take, Nat.add_sub_cancel_left, hsplit, List.take_left]
  obtain ⟨x, xs, rfl⟩ := List.exists_cons_of_ne_nil hne
  have hget : pattern[start]? = some x := by
    rw [← List.head?_drop, hsplit]
    rfl
  have hindex : skipToClosing pattern (if pattern[start]? = some ']' then start + 1 else start)
      = start + (x :: xs).length := by
    by_cases hx : x = ']'
    · have htail : pattern.drop (start + 1) = xs ++ ']' :: rest := by
        rw [← List.tail_drop, hsplit]
        rfl
      rw [if_pos (by rw [hget, hx]), skipToClosing_of_append htail hfirst, List.length_cons]
      omega
    · rw [if_neg (by rw [hget]; simpa using hx), skipToClosing_of_append hsplit]
      simpa [Ne.symm hx] using hfirst
  rw [List.length_cons] at hlen hindex hcontent ⊢
  simp only [classFrom, hindex]
  rw [if_neg (by omega), classLoop_eq (by omega), hcontent, Bool.false_or]

theorem classFrom_of_unclosed (hle : start ≤ pattern.length)
    (h : ∀ content rest, ¬Glob.Closes (pattern.drop start) content rest) (candidate : Char) :
    classFrom pattern start candidate = none := by
  have hindex : skipToClosing pattern (if pattern[start]? = some ']' then start + 1 else start)
      = pattern.length := by
    split
    · next hget =>
      obtain ⟨hlt, hx⟩ := List.getElem?_eq_some_iff.mp hget
      refine skipToClosing_of_notMem hlt fun hmem => ?_
      obtain ⟨a, b, he, hnot⟩ := List.eq_append_cons_of_mem hmem
      refine h (']' :: a) b ⟨?_, List.cons_ne_nil _ _, hnot⟩
      rw [List.drop_eq_getElem_cons hlt, hx, he, List.cons_append]
    · next hget =>
      refine skipToClosing_of_notMem hle fun hmem => ?_
      obtain ⟨a, b, he, hnot⟩ := List.eq_append_cons_of_mem hmem
      refine h a b ⟨he, ?_, fun hmem => hnot (List.mem_of_mem_tail hmem)⟩
      rintro rfl
      rw [← List.head?_drop, he] at hget
      exact hget rfl
  simp only [classFrom, hindex, true_or, if_true]

/-- The index at which a bracket expression ends stands for the suffix after it. -/
theorem characterClassAt_of_bracket
    (h : Glob.Bracket (pattern.drop (start + 1)) negated content rest) (candidate : Char) :
    ∃ classEnd, characterClassAt pattern start candidate
        = some (classEnd, classContains candidate content != negated) ∧
      classEnd < pattern.length ∧ pattern.drop (classEnd + 1) = rest := by
  generalize hafter : pattern.drop (start + 1) = after at h
  have hend : ∀ {i : ℕ}, pattern.drop i = content ++ ']' :: rest →
      i + content.length < pattern.length ∧ pattern.drop (i + content.length + 1) = rest := by
    intro i hi
    have hlen := congrArg List.length hi
    rw [List.length_drop, List.length_append, List.length_cons] at hlen
    refine ⟨by omega, ?_⟩
    rw [Nat.add_assoc, ← List.drop_drop, hi, List.drop_append]
    simp
  have hmark : pattern[start + 1]? = after.head? := by rw [← hafter, List.head?_drop]
  cases h with
  | plain hplain h =>
    subst hafter
    rw [characterClassAt, if_neg (by rwa [hmark]), classFrom_of_closes h]
    exact ⟨_, by simp, hend h.split⟩
  | @negated after _ _ h =>
    have hdrop : pattern.drop (start + 2) = after := by rw [← List.tail_drop, hafter]; rfl
    rw [List.head?_cons] at hmark
    rw [characterClassAt, if_pos hmark, classFrom_of_closes (by rwa [hdrop])]
    exact ⟨_, by simp, hend (hdrop.trans h.split)⟩

theorem characterClassAt_of_unclosed (hlt : start < pattern.length)
    (h : ∀ negated content rest, ¬Glob.Bracket (pattern.drop (start + 1)) negated content rest)
    (candidate : Char) : characterClassAt pattern start candidate = none := by
  unfold characterClassAt
  split
  · next hmark =>
    obtain ⟨hlt', hget⟩ := List.getElem?_eq_some_iff.mp hmark
    rw [Option.map_eq_none_iff]
    refine classFrom_of_unclosed hlt' (fun content rest hcloses => h true content rest ?_) candidate
    rw [List.drop_eq_getElem_cons hlt', hget]
    exact .negated hcloses
  · next hmark =>
    refine classFrom_of_unclosed hlt (fun content rest hcloses => h false content rest ?_) candidate
    exact .plain (by rwa [List.head?_drop]) hcloses

/-! ### The table does not change an answer -/

/-- Every entry of the table is the answer of the recursion on suffixes. -/
def Memo.Sound (pattern candidate : List Char) (memo : Memo) : Prop :=
  ∀ i j answer, memo.lookup (i, j) = some answer →
    answer = globMatches (pattern.drop i) (candidate.drop j)

theorem Memo.Sound.cons {pattern candidate : List Char} {memo : Memo}
    (h : memo.Sound pattern candidate) {i j : ℕ} {answer : Bool}
    (hanswer : answer = globMatches (pattern.drop i) (candidate.drop j)) :
    Memo.Sound pattern candidate (((i, j), answer) :: memo) := by
  intro i' j' answer' hlookup
  rw [List.lookup_cons] at hlookup
  split at hlookup
  · next heq =>
    obtain ⟨rfl, rfl⟩ := Prod.mk.inj (eq_of_beq heq)
    rw [← Option.some.inj hlookup, hanswer]
  · exact h i' j' answer' hlookup

theorem globMatches_star {pattern : List Char} {candidate : List Char} :
    globMatches ('*' :: pattern) candidate
      = (globMatches pattern candidate
        || (!candidate.isEmpty && globMatches ('*' :: pattern) candidate.tail)) := by
  cases candidate with
  | nil => rw [globMatches]; simp
  | cons c candidate => rw [globMatches]; simp

theorem globMatches_nil_right {p : Char} (hp : p ≠ '*') (pattern : List Char) :
    globMatches (p :: pattern) [] = false := by
  rw [globMatches]
  rintro rfl
  exact absurd rfl hp

theorem globMatches_literal {p c : Char} {pattern candidate : List Char} (hstar : p ≠ '*')
    (hany : p ≠ '?') (hopen : p ≠ '[') :
    globMatches (p :: pattern) (c :: candidate) = (p = c && globMatches pattern candidate) := by
  rw [globMatches]
  · rintro rfl
    exact absurd rfl hstar
  · rintro rfl
    exact absurd rfl hany
  · rintro rfl
    exact absurd rfl hopen

theorem globMatches_bracket {after content rest candidate : List Char} {negated : Bool} {c : Char}
    (h : Glob.Bracket after negated content rest) :
    globMatches ('[' :: after) (c :: candidate)
      = ((classContains c content != negated) && globMatches rest candidate) := by
  rw [globMatches]
  have hclass := characterClass_of_bracket h c
  split
  · next rest' hsome =>
    obtain ⟨rfl, hfound⟩ := Prod.mk.inj (Option.some.inj (hsome.symm.trans hclass))
    rw [← hfound, Bool.true_and]
  · next rest' hsome =>
    obtain ⟨rfl, hfound⟩ := Prod.mk.inj (Option.some.inj (hsome.symm.trans hclass))
    rw [← hfound, Bool.false_and]
  · next hnone => rw [hnone] at hclass; cases hclass

theorem globMatches_unclosed {after candidate : List Char} {c : Char}
    (h : ∀ negated content rest, ¬Glob.Bracket after negated content rest) :
    globMatches ('[' :: after) (c :: candidate) = ('[' = c && globMatches after candidate) := by
  rw [globMatches]
  have hclass := characterClass_of_unclosed h c
  split
  · next hsome => rw [hsome] at hclass; cases hclass
  · next hsome => rw [hsome] at hclass; cases hclass
  · rfl

/-- A result answers for a pair of indices if it is the answer for the suffixes, with a sound table.
-/
def Answers (pattern candidate : List Char) (i j : ℕ) (result : Bool × Memo) : Prop :=
  result.1 = globMatches (pattern.drop i) (candidate.drop j) ∧ result.2.Sound pattern candidate

/-- The answer for a pair of indices is the one for the suffixes, and the table stays sound. -/
theorem answers_globSuffixMatches {candidate : List Char} {i j : ℕ} {memo : Memo}
    (hi : i ≤ pattern.length) (hj : j ≤ candidate.length) (hmemo : memo.Sound pattern candidate) :
    Answers pattern candidate i j (globSuffixMatches pattern candidate i j memo) := by
  induction hn : (pattern.length - i) + (candidate.length - j) using Nat.strong_induction_on
    generalizing i j memo with
  | _ n ih =>
    subst hn
    have hsave : ∀ result, Answers pattern candidate i j result →
        Answers pattern candidate i j (result.1, ((i, j), result.1) :: result.2) :=
      fun result h => ⟨h.1, h.2.cons h.1⟩
    rw [globSuffixMatches]
    split
    · next answer hlookup => exact ⟨hmemo i j answer hlookup, hmemo⟩
    · refine hsave _ ?_
      split
      · next hp =>
        -- the pattern is used up
        have hdrop : pattern.drop i = [] := List.drop_eq_nil_iff.mpr
          (List.getElem?_eq_none_iff.mp hp)
        refine ⟨?_, hmemo⟩
        rw [hdrop, globMatches]
        simp only [List.drop_eq_nil_iff]
        exact decide_eq_decide.mpr (by omega)
      · next p hp =>
        obtain ⟨hlt, hget⟩ := List.getElem?_eq_some_iff.mp hp
        have hpattern : pattern.drop i = p :: pattern.drop (i + 1) := by
          rw [List.drop_eq_getElem_cons hlt, hget]
        split
        · next hstar =>
          subst hstar
          have hskipped := ih _ (by omega) hlt hj hmemo rfl
          have hcases := @globMatches_star (pattern.drop (i + 1)) (candidate.drop j)
          rw [← hpattern, ← hskipped.1] at hcases
          dsimp only
          by_cases hfound : (globSuffixMatches pattern candidate (i + 1) j memo).1 = true
          · rw [if_pos hfound]
            exact ⟨by rw [hcases, hfound, Bool.true_or], hskipped.2⟩
          · rw [if_neg hfound]
            rw [Bool.not_eq_true] at hfound
            by_cases hmore : j < candidate.length
            · rw [if_pos hmore]
              obtain ⟨hnext, hsound⟩ := ih _ (by omega) hi hmore hskipped.2 rfl
              refine ⟨?_, hsound⟩
              have hne : (candidate.drop j).isEmpty = false := by
                rw [List.isEmpty_eq_false_iff, Ne, List.drop_eq_nil_iff]
                omega
              rw [hnext, hcases, hfound, hne, List.tail_drop]
              rfl
            · rw [if_neg hmore]
              have hnil : candidate.drop j = [] := List.drop_eq_nil_iff.mpr (by omega)
              refine ⟨?_, hskipped.2⟩
              rw [hcases, hfound, hnil]
              rfl
        · next hstar =>
          split
          · next hc =>
            have hdrop : candidate.drop j = [] :=
              List.drop_eq_nil_iff.mpr (List.getElem?_eq_none_iff.mp hc)
            exact ⟨by rw [hpattern, hdrop, globMatches_nil_right hstar], hmemo⟩
          · next c hc =>
            obtain ⟨hlt', hget'⟩ := List.getElem?_eq_some_iff.mp hc
            have hcandidate : candidate.drop j = c :: candidate.drop (j + 1) := by
              rw [List.drop_eq_getElem_cons hlt', hget']
            have hnext := ih _ (by omega) hlt hlt' hmemo rfl
            split
            · next hany =>
              subst hany
              refine ⟨?_, hnext.2⟩
              rw [hnext.1, hpattern, hcandidate, globMatches]
            · next hany =>
              split
              · next hopen =>
                subst hopen
                by_cases hclosed : ∃ negated content rest,
                    Glob.Bracket (pattern.drop (i + 1)) negated content rest
                · obtain ⟨negated, content, rest, hbracket⟩ := hclosed
                  obtain ⟨classEnd, hclass, hend, hrest⟩ := characterClassAt_of_bracket hbracket c
                  have hmatches := @globMatches_bracket _ _ _ (candidate.drop (j + 1)) _ c hbracket
                  rw [← hpattern, ← hcandidate, ← hrest] at hmatches
                  have hafter := ih _ (by have := lt_of_characterClassAt hclass; omega) hend hlt'
                    hmemo rfl
                  split
                  · next classEnd' hsome =>
                    obtain ⟨rfl, hfound⟩ := Prod.mk.inj (Option.some.inj (hclass.symm.trans hsome))
                    exact ⟨by rw [hmatches, hfound, Bool.true_and, hafter.1], hafter.2⟩
                  · next hsome =>
                    obtain ⟨-, hfound⟩ := Prod.mk.inj (Option.some.inj (hclass.symm.trans hsome))
                    exact ⟨by rw [hmatches, hfound, Bool.false_and], hmemo⟩
                  · next hnone => rw [hnone] at hclass; cases hclass
                · have hunclosed : ∀ negated content rest,
                      ¬Glob.Bracket (pattern.drop (i + 1)) negated content rest :=
                    fun negated content rest h => hclosed ⟨negated, content, rest, h⟩
                  have hclass := characterClassAt_of_unclosed hlt hunclosed c
                  have hmatches := @globMatches_unclosed _ (candidate.drop (j + 1)) c hunclosed
                  rw [← hpattern, ← hcandidate, ← hnext.1] at hmatches
                  split
                  · next hsome => rw [hsome] at hclass; cases hclass
                  · next hsome => rw [hsome] at hclass; cases hclass
                  · split
                    · next heq =>
                        exact ⟨by rw [hmatches, decide_eq_true heq, Bool.true_and], hnext.2⟩
                    · next hne =>
                        exact ⟨by rw [hmatches, decide_eq_false hne, Bool.false_and], hmemo⟩
              · next hopen =>
                have hliteral := @globMatches_literal p c (pattern.drop (i + 1))
                  (candidate.drop (j + 1))
                  hstar hany hopen
                rw [← hpattern, ← hcandidate, ← hnext.1] at hliteral
                split
                · next heq => exact ⟨by rw [hliteral, decide_eq_true heq, Bool.true_and], hnext.2⟩
                · next hne => exact ⟨by rw [hliteral, decide_eq_false hne, Bool.false_and], hmemo⟩

/-- The table and the indices do not change the answer. -/
theorem shellGlobMatches_eq (pattern candidate : String) :
    shellGlobMatches pattern candidate = globMatches pattern.toList candidate.toList :=
  (answers_globSuffixMatches (Nat.zero_le _) (Nat.zero_le _) fun _ _ _ h => absurd h (by simp)).1

/-! ### The meaning of a pattern -/

/-- The items of a bracket expression hold a character if one of them does. -/
theorem classContains_iff {items : List Glob.Item} (h : Glob.Items content items)
    (candidate : Char) :
    classContains candidate content = true ↔ ∃ item ∈ items, item.Holds candidate := by
  induction h with
  | nil => simp [classContains]
  | range first last h ih => simp [classContains, Glob.Item.Holds, ih]
  | single x hrange h ih => simp [classContains_single hrange, Glob.Item.Holds, ih]

/-- **The recursion decides the language of the tokens.** The induction is on the reading of the
pattern; a star needs one on the candidate too. -/
theorem globMatches_iff {tokens : List Glob.Token} (h : Glob.Reads pattern tokens)
    (candidate : List Char) :
    globMatches pattern candidate = true ↔ candidate ∈ Glob.language tokens := by
  induction h generalizing candidate with
  | nil => simp [globMatches, Glob.mem_language_nil]
  | star h ih =>
    induction candidate with
    | nil => rw [globMatches, ih, Glob.mem_language_star_nil]
    | cons c candidate ihc =>
      rw [globMatches, Bool.or_eq_true, ih, ihc, Glob.mem_language_star_cons]
  | any h ih =>
    cases candidate with
    | nil => simp [globMatches_nil_right, Glob.nil_notMem_language_one Glob.language_any]
    | cons c candidate => simp [globMatches, ih, Glob.mem_language_one_cons Glob.language_any]
  | @class_ _ _ _ negated _ _ hbracket hitems h ih =>
    cases candidate with
    | nil => simp [globMatches_nil_right, Glob.nil_notMem_language_one (Glob.language_class _ _)]
    | cons c candidate =>
      rw [globMatches_bracket hbracket, Bool.and_eq_true, ih,
        Glob.mem_language_one_cons (Glob.language_class _ _), ← classContains_iff hitems]
      cases negated <;> simp
  | unterminated hopen h ih =>
    cases candidate with
    | nil => simp [globMatches_nil_right, Glob.nil_notMem_language_one (Glob.language_literal _)]
    | cons c candidate =>
      simp [globMatches_unclosed hopen, ih, Glob.mem_language_one_cons (Glob.language_literal _)]
  | literal hstar hany hopen h ih =>
    cases candidate with
    | nil =>
      simp [globMatches_nil_right hstar, Glob.nil_notMem_language_one (Glob.language_literal _)]
    | cons c candidate =>
      simp [globMatches_literal hstar hany hopen, ih,
        Glob.mem_language_one_cons (Glob.language_literal _)]

/-- **The matcher decides the meaning of a pattern.** Every pattern is read in exactly one way, and
a candidate matches if and only if it is in the language of that reading. -/
theorem shellGlobMatches_iff_mem_language (pattern : String) :
    ∃ tokens, (∀ other, Glob.Reads pattern.toList other ↔ other = tokens) ∧
      ∀ candidate : String,
        shellGlobMatches pattern candidate = true ↔ candidate.toList ∈ Glob.language tokens := by
  obtain ⟨tokens, htokens⟩ := Glob.exists_reads_iff pattern.toList
  refine ⟨tokens, htokens, fun candidate => ?_⟩
  rw [shellGlobMatches_eq]
  exact globMatches_iff ((htokens tokens).mpr rfl) candidate.toList

/-! ### Bracket expressions of the Python runtime

The Python runtime gives a pattern to `fnmatchcase`, which rewrites the content of a bracket
expression before it looks at it. It cuts the content at the hyphens of its ranges, and where a
range has its ends the wrong way round it takes out both ends and joins the rest. What was inside
can then come first. -/

/-- The content of a bracket expression cut at the hyphens of its ranges. The first `skip`
characters cannot be such a hyphen, and neither can the two characters after one. -/
def cutRanges : ℕ → List Char → List Char → List (List Char)
  | _, chunk, [] => [chunk]
  | skip + 1, chunk, c :: content => cutRanges skip (chunk ++ [c]) content
  | 0, chunk, c :: content =>
    if c = '-' then chunk :: cutRanges 2 [] content else cutRanges 0 (chunk ++ [c]) content

/-- A hyphen at the end stands for itself. -/
def closeChunks : List (List Char) → List (List Char)
  | [] => []
  | [chunk, []] => [chunk ++ ['-']]
  | chunk :: chunks => chunk :: closeChunks chunks

/-- Take out the ends of ranges that have them the wrong way round, from the last range on. -/
def removeEmptyRanges : List (List Char) → List (List Char)
  | [] => []
  | chunk :: chunks =>
    match removeEmptyRanges chunks with
    | [] => [chunk]
    | next :: rest =>
      if chunk.getLast?.any fun x => next.head?.any (· < x) then
        (chunk.dropLast ++ next.tail) :: rest
      else chunk :: next :: rest

/-- A character is in a chunk, or in the range between two chunks. -/
def chunksContain (candidate : Char) : List (List Char) → Bool
  | [] => false
  | chunk :: chunks =>
    candidate ∈
      chunk
      || (chunk.getLast?.any (· ≤ candidate) && chunks.head?.any (·.head?.any (candidate ≤ ·)))
      || chunksContain candidate chunks

/-- Whether `fnmatchcase` matches a character against the content of a bracket expression. -/
def fnmatchClass (content : List Char) (candidate : Char) : Bool :=
  match removeEmptyRanges
    (closeChunks (cutRanges (if content.head? = some '!' then 2 else 1) [] content)) with
  | [] => false
  | [['!']] => true
  | ('!' :: chunk) :: chunks => !chunksContain candidate (chunk :: chunks)
  | chunks => chunksContain candidate chunks

/-- After the range from `z` to `a` is gone, the exclamation mark is first, and `fnmatchcase` takes
the expression for the negation of nothing. Here it holds the exclamation mark alone. -/
theorem fnmatchClass_differs :
    fnmatchClass ['z', '-', 'a', '!'] 'x' = true ∧ shellGlobMatches "[z-a!]" "x" = false := by
  refine ⟨by decide, ?_⟩
  have hbracket : Glob.Bracket ['z', '-', 'a', '!', ']'] false ['z', '-', 'a', '!'] [] :=
    .plain (by decide) ⟨rfl, by decide, by decide⟩
  rw [shellGlobMatches_eq]
  exact (globMatches_bracket hbracket).trans (by decide)

end Zeta
