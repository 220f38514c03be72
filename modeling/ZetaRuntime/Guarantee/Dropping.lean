import ZetaRuntime.Agent.Answers
import ZetaRuntime.Agent.Prompt
import Mathlib.Data.List.Count
import Mathlib.Data.List.Infix
import Mathlib.Logic.Function.Iterate

/-!
# Dropping the oldest history

A prompt that exceeds its budget loses its oldest historical message, then the next one, until it
fits or no historical message is left. With a message go the results of its calls.

Which results these are is a matter of scope. A call id may be used again, and then a result belongs
to the latest call with its id before it (`AnswersCall`). The loop removes every later result that
names the id. So it can take the result of a later call, and as it does not ask where a result came
from, one of the current run. An exchange is a message with the results that answer it; the loop
removes exactly exchanges of history if and only if this does not happen on the way
(`dropOldest_rounds_exact_iff`).

## Main definitions

* `AnswersCall`, `withoutExchange` — whose result a result is, and a prompt without an exchange
* `ExactRound`, `WellScoped` — a round that removes an exchange, and when it does

## Main results

* `exactRound_iff`, `dropOldest_rounds_exact_iff` — one round, and the loop
-/

namespace Zeta

open Outcome

variable {between components front later : List PromptComponent} {ids : List String}
  {component message : PromptComponent} {maxTokens n tokens : ℕ}

/-! ### What is old -/

section

variable [AgentPlatform] [StringText]

section

omit [AgentPlatform] [StringText]

/-- A component that dropping may take. -/
def old (component : PromptComponent) : Bool := component.isHistorical && component.message.isSome

theorem oldestHistoricalMessage_cons (component : PromptComponent)
    (components : List PromptComponent) :
    oldestHistoricalMessage (component :: components) =
      if old component then some 0 else (oldestHistoricalMessage components).map (· + 1) :=
  List.findIdx?_cons

theorem oldestHistoricalMessage_eq_none :
    oldestHistoricalMessage components = none ↔ ∀ component ∈ components, old component = false :=
  List.findIdx?_eq_none_iff

end

theorem estimatedPromptTokens_cons : estimatedPromptTokens (component :: components) = .ok tokens ↔
      ∃ first, estimatedComponentTokens component = .ok first ∧
        ∃ rest, estimatedPromptTokens components = .ok rest ∧ first + rest = tokens := by
  simp only [estimatedPromptTokens, ok_iff]

theorem estimatedPromptTokens_sublist {components' : List PromptComponent}
    (h : estimatedPromptTokens components = .ok tokens) (hsub : components'.Sublist components) :
    ∃ tokens' ≤ tokens, estimatedPromptTokens components' = .ok tokens' := by
  induction hsub generalizing tokens with
  | slnil => exact ⟨tokens, le_refl _, h⟩
  | cons component _ ih =>
    obtain ⟨first, -, rest, hrest, rfl⟩ := estimatedPromptTokens_cons.mp h
    obtain ⟨tokens', hle, htokens'⟩ := ih hrest
    exact ⟨tokens', by omega, htokens'⟩
  | cons_cons component _ ih =>
    obtain ⟨first, hfirst, rest, hrest, rfl⟩ := estimatedPromptTokens_cons.mp h
    obtain ⟨tokens', hle, htokens'⟩ := ih hrest
    exact ⟨first + tokens',
      by omega, estimatedPromptTokens_cons.mpr ⟨first, hfirst, tokens', htokens', rfl⟩⟩

end

/-! ### Exchanges -/

/-- Whether a message is the result of a call. -/
def isToolResult (component : PromptComponent) : Bool :=
  match component.message with
  | none => false
  | some message => eventText message "role" = "tool"

/-- The call a result names. -/
def resultCallId (component : PromptComponent) : String :=
  match component.message with
  | none => ""
  | some message => eventText message "tool_call_id"

/-- The ids of the calls that a message makes; a result makes none. -/
def callsMade (component : PromptComponent) : List String :=
  if isToolResult component then [] else componentToolCallIds component

/-- A result answers a message that made its call if no message between the two made it again. -/
structure AnswersCall (message : PromptComponent) (between : List PromptComponent)
    (result : PromptComponent) :
    Prop where
  isResult : isToolResult result = true
  made : resultCallId result ∈ callsMade message
  latest : ∀ other ∈ between, resultCallId result ∉ callsMade other

/-- What is kept of the components after a message if exactly the results that answer it are
removed, all of them from history. -/
inductive Strips (message : PromptComponent) :
    List PromptComponent → List PromptComponent → List PromptComponent → Prop
  | nil {between : List PromptComponent} : Strips message between [] []
  | remove {between later kept : List PromptComponent} {component : PromptComponent}
      (hanswers : AnswersCall message between component) (hhistory : component.isHistorical = true)
      (h : Strips message (between ++ [component]) later kept) :
      Strips message between (component :: later) kept
  | keep {between later kept : List PromptComponent} {component : PromptComponent}
      (hother : ¬AnswersCall message between component)
      (h : Strips message (between ++ [component]) later kept) :
      Strips message between (component :: later) (component :: kept)

/-- The components without the results of some calls, each up to the next message that makes the
call. -/
def withoutAnswers : List String → List PromptComponent → List PromptComponent
  | _, [] => []
  | ids, component :: later =>
    if isResultForCalls ids component then withoutAnswers ids later
    else component :: withoutAnswers (ids.filter (· ∉ callsMade component)) later

/-- The components without the oldest historical message and the results that answer it. -/
def withoutExchange : List PromptComponent → List PromptComponent
  | [] => []
  | component :: later =>
    if old component then withoutAnswers (callsMade component) later
    else component :: withoutExchange later

/-- A round of the loop: the components without the oldest historical message and without the later
results that name one of its calls. -/
def dropOldestRound (components : List PromptComponent) : List PromptComponent :=
  match oldestHistoricalMessage components with
  | none => components
  | some index => withoutMessage components index

/-- In a list whose first historical message is this one, every later result that names one of its
calls came from history and answers it. -/
def WellScoped (components : List PromptComponent) : Prop :=
  ∀ front message later, components = front ++ message :: later → (∀ c ∈ front, old c = false) →
    old message = true →
    ∀ between result rest, later = between ++ result :: rest →
      isResultForCalls (componentToolCallIds message) result = true →
        result.isHistorical = true ∧ AnswersCall message between result

/-- A round removes exactly the oldest historical message and the results that answer it, all from
history. -/
def ExactRound (components : List PromptComponent) : Prop :=
  ∀ front message later, components = front ++ message :: later → (∀ c ∈ front, old c = false) →
    old message = true →
    ∃ kept, dropOldestRound components = front ++ kept ∧ Strips message [] later kept

theorem isResultForCalls_eq_true_iff :
    isResultForCalls ids component = true ↔
      isToolResult component = true ∧ resultCallId component ∈ ids := by
  unfold isResultForCalls isToolResult resultCallId
  cases component.message <;> simp

theorem AnswersCall.isResultForCalls {result : PromptComponent}
    (h : AnswersCall message between result) :
    isResultForCalls (componentToolCallIds message) result = true := by
  refine isResultForCalls_eq_true_iff.mpr ⟨h.isResult, ?_⟩
  have hmade := h.made
  unfold callsMade at hmade
  split at hmade
  · cases hmade
  · exact hmade

/-! ### A round -/

theorem oldestHistoricalMessage_append {front later : List PromptComponent}
    {message : PromptComponent} (hfront : ∀ c ∈ front, old c = false) (hold : old message = true) :
    oldestHistoricalMessage (front ++ message :: later) = some front.length := by
  induction front with
  | nil => rw [List.nil_append, oldestHistoricalMessage_cons, if_pos hold, List.length_nil]
  | cons c front ih =>
    obtain ⟨hc, hfront⟩ := List.forall_mem_cons.mp hfront
    rw [List.cons_append, oldestHistoricalMessage_cons, if_neg (by simp [hc]), ih hfront]
    rfl

theorem dropOldestRound_append (hfront : ∀ c ∈ front, old c = false) (hold : old message = true) :
    dropOldestRound (front ++ message :: later)
      = front ++ later.filter fun c => !isResultForCalls (componentToolCallIds message) c := by
  rw [dropOldestRound, oldestHistoricalMessage_append hfront hold]
  simp [withoutMessage]

theorem withoutExchange_append (hfront : ∀ c ∈ front, old c = false) (hold : old message = true) :
    withoutExchange (front ++ message :: later) =
      front ++ withoutAnswers (callsMade message) later := by
  induction front with
  | nil => rw [List.nil_append, withoutExchange, if_pos hold, List.nil_append]
  | cons c front ih =>
    obtain ⟨hc, hfront⟩ := List.forall_mem_cons.mp hfront
    rw [List.cons_append, withoutExchange, if_neg (by simp [hc]), ih hfront, List.cons_append]

/-- A list has no historical message, or a first one. -/
theorem exists_first_old (components : List PromptComponent) :
    (∀ c ∈ components, old c = false) ∨
      ∃ front message later, components = front ++ message :: later ∧ (∀ c ∈ front, old c = false) ∧
        old message = true := by
  induction components with
  | nil => exact .inl fun c hc => absurd hc List.not_mem_nil
  | cons c components ih =>
    cases hold : old c with
    | true => exact .inr ⟨[], c, components, rfl, fun c hc => absurd hc List.not_mem_nil, hold⟩
    | false =>
      rcases ih with hnone | ⟨front, message, later, rfl, hfront, hmessage⟩
      · exact .inl (List.forall_mem_cons.mpr ⟨hold, hnone⟩)
      · exact .inr
          ⟨c :: front, message, later, rfl, List.forall_mem_cons.mpr ⟨hold, hfront⟩, hmessage⟩

/-- Every way to split a list at an element is at its first one, or splits the rest. -/
theorem forall_split_cons {P : List PromptComponent → PromptComponent → Prop}
    {c : PromptComponent} :
    (∀ mid result rest, c :: later = mid ++ result :: rest → P mid result) ↔
      P [] c ∧ ∀ mid result rest, later = mid ++ result :: rest → P (c :: mid) result := by
  constructor
  · intro h
    refine ⟨h [] c later rfl, fun mid result rest he => h (c :: mid) result rest ?_⟩
    rw [he, List.cons_append]
  · rintro ⟨hfirst, hlater⟩ mid result rest he
    cases mid with
    | nil =>
      obtain ⟨rfl, -⟩ := List.cons.inj he
      exact hfirst
    | cons x mid =>
      obtain ⟨rfl, htail⟩ := List.cons.inj he
      exact hlater mid result rest htail

/-- What the loop keeps is what is kept if exactly the answers are removed, if and only if every
later result that names a call is an answer from history. -/
theorem strips_filter_iff :
    Strips message between later
      (later.filter fun c => !isResultForCalls (componentToolCallIds message) c) ↔
      ∀ mid result rest, later = mid ++ result :: rest →
        isResultForCalls (componentToolCallIds message) result = true →
          result.isHistorical = true ∧ AnswersCall message (between ++ mid) result := by
  induction later generalizing between with
  | nil =>
    refine ⟨fun _ mid result rest he => ?_, fun _ => .nil⟩
    exact absurd he (by simp)
  | cons c later ih =>
    have hnext := @ih (between ++ [c])
    simp only [List.append_assoc, List.singleton_append] at hnext
    rw [forall_split_cons, ← hnext, List.append_nil]
    by_cases hc : isResultForCalls (componentToolCallIds message) c = true
    · rw [List.filter_cons_of_neg (by simp [hc])]
      constructor
      · intro h
        generalize hkept : later.filter
          (fun c => !isResultForCalls (componentToolCallIds message) c) = kept
          at h ⊢
        cases h with
        | remove hanswers hhistory h => exact ⟨fun _ => ⟨hhistory, hanswers⟩, h⟩
        | keep hother h =>
          -- the loop keeps no result that names a call
          have hmem := List.mem_filter.mp (hkept ▸ List.mem_cons_self)
          simp [hc] at hmem
      · rintro ⟨hfirst, h⟩
        obtain ⟨hhistory, hanswers⟩ := hfirst hc
        exact .remove hanswers hhistory h
    · rw [List.filter_cons_of_pos (by simpa using hc)]
      constructor
      · intro h
        cases h with
        | remove hanswers hhistory h => exact absurd hanswers.isResultForCalls hc
        | keep hother h => exact ⟨fun hresult => absurd hresult hc, h⟩
      · rintro ⟨-, h⟩
        exact .keep (fun hanswers => hc hanswers.isResultForCalls) h

/-- There is one first historical message. -/
theorem eq_of_first_old {front' later' : List PromptComponent} {message' : PromptComponent}
    (he : front ++ message :: later = front' ++ message' :: later')
    (hfront : ∀ c ∈ front, old c = false) (hold : old message = true)
    (hfront' : ∀ c ∈ front', old c = false) (hold' : old message' = true) :
    front = front' ∧ message = message' ∧ later = later' := by
  have hindex := @oldestHistoricalMessage_append _ later _ hfront hold
  rw [he, oldestHistoricalMessage_append hfront' hold'] at hindex
  obtain ⟨rfl, htail⟩ := List.append_inj he (Option.some.inj hindex).symm
  exact ⟨rfl, List.cons.inj htail⟩

theorem exactRound_of_strips {front later kept : List PromptComponent} {message : PromptComponent}
    (hfront : ∀ c ∈ front, old c = false) (hold : old message = true)
    (hround : dropOldestRound (front ++ message :: later) = front ++ kept)
    (h : Strips message [] later kept) : ExactRound (front ++ message :: later) := by
  intro front' message' later' he hfront' hold'
  obtain ⟨rfl, rfl, rfl⟩ := eq_of_first_old he hfront hold hfront' hold'
  exact ⟨kept, hround, h⟩

theorem exactRound_iff : ExactRound components ↔ WellScoped components := by
  constructor
  · intro h front message later he hfront hold between result rest hlater hresult
    obtain ⟨kept, hround, hstrips⟩ := h front message later he hfront hold
    rw [he, dropOldestRound_append hfront hold] at hround
    rw [← List.append_cancel_left hround] at hstrips
    simpa using strips_filter_iff.mp hstrips between result rest hlater hresult
  · intro h front message later he hfront hold
    refine ⟨_, by rw [he, dropOldestRound_append hfront hold], strips_filter_iff.mpr ?_⟩
    intro mid result rest hlater hresult
    rw [List.nil_append]
    exact h front message later he hfront hold mid result rest hlater hresult

/-- Removing answers up to the next message that makes the call is removing them all, if every one
of them answers the message. -/
theorem withoutAnswers_eq_filter
    (h : ∀ mid result rest, later = mid ++ result :: rest → isResultForCalls ids result = true →
      ∀ other ∈ mid, resultCallId result ∉ callsMade other) :
    withoutAnswers ids later = later.filter fun c => !isResultForCalls ids c := by
  induction later generalizing ids with
  | nil => rfl
  | cons c later ih =>
    rw [forall_split_cons] at h
    obtain ⟨-, hlater⟩ := h
    rw [withoutAnswers]
    split
    · next hc =>
      rw [List.filter_cons_of_neg (by simp [hc])]
      exact ih fun mid result rest he hresult other hmem =>
        hlater mid result rest he hresult other (.tail _ hmem)
    · next hc =>
      rw [List.filter_cons_of_pos (by simpa using hc)]
      -- no later result is of a call that this message makes again
      have hsame : ∀ result ∈ later, isResultForCalls (ids.filter (· ∉ callsMade c)) result
          = isResultForCalls ids result := by
        intro result hmem
        rw [Bool.eq_iff_iff, isResultForCalls_eq_true_iff, isResultForCalls_eq_true_iff,
          List.mem_filter]
        constructor
        · exact fun ⟨hresult, hid, _⟩ => ⟨hresult, hid⟩
        · rintro ⟨hresult, hid⟩
          obtain ⟨mid, rest, he⟩ := List.append_of_mem hmem
          have hnot := hlater mid result rest he (isResultForCalls_eq_true_iff.mpr ⟨hresult, hid⟩) c
            List.mem_cons_self
          exact ⟨hresult, hid, by simpa using hnot⟩
      rw [ih, List.filter_congr fun result hmem => congrArg not (hsame result hmem)]
      intro mid result rest he hresult other hmem
      have hin : result ∈ later := he ▸ List.mem_append_right mid (.head _)
      rw [hsame result hin] at hresult
      exact hlater mid result rest he hresult other (.tail _ hmem)

theorem dropOldestRound_of_not_old (h : ∀ c ∈ components, old c = false) :
    dropOldestRound components = components := by
  rw [dropOldestRound, oldestHistoricalMessage_eq_none.mpr h]

theorem withoutExchange_of_not_old (h : ∀ c ∈ components, old c = false) :
    withoutExchange components = components := by
  induction components with
  | nil => rfl
  | cons c components ih =>
    obtain ⟨hc, hcomponents⟩ := List.forall_mem_cons.mp h
    rw [withoutExchange, if_neg (by simp [hc]), ih hcomponents]

/-- An exact round removes an exchange. -/
theorem dropOldestRound_eq_withoutExchange (h : WellScoped components) :
    dropOldestRound components = withoutExchange components := by
  rcases exists_first_old components with hnone | ⟨front, message, later, rfl, hfront, hold⟩
  · rw [dropOldestRound_of_not_old hnone, withoutExchange_of_not_old hnone]
  · have hlater := h front message later rfl hfront hold
    -- a result that makes calls itself has no later result that names one of them
    have hcalls : ∀ result ∈ later, isResultForCalls (componentToolCallIds message) result
        = isResultForCalls (callsMade message) result := by
      intro result hmem
      obtain ⟨mid, rest, he⟩ := List.append_of_mem hmem
      rw [Bool.eq_iff_iff]
      constructor
      · intro hresult
        obtain ⟨-, hanswers⟩ := hlater mid result rest he hresult
        exact isResultForCalls_eq_true_iff.mpr ⟨hanswers.isResult, hanswers.made⟩
      · intro hresult
        rw [isResultForCalls_eq_true_iff, callsMade] at hresult
        obtain ⟨hresult, hid⟩ := hresult
        split at hid
        · cases hid
        · exact isResultForCalls_eq_true_iff.mpr ⟨hresult, hid⟩
    rw [dropOldestRound_append hfront hold, withoutExchange_append hfront hold,
      withoutAnswers_eq_filter,
      List.filter_congr fun result hmem => congrArg not (hcalls result hmem)]
    intro mid result rest he hresult
    have hin : result ∈ later := he ▸ List.mem_append_right mid (.head _)
    rw [← hcalls result hin] at hresult
    exact (hlater mid result rest he hresult).2.latest

theorem dropOldestRound_sublist (components : List PromptComponent) :
    (dropOldestRound components).Sublist components := by
  rcases exists_first_old components with hnone | ⟨front, message, later, rfl, hfront, hold⟩
  · rw [dropOldestRound_of_not_old hnone]
  · rw [dropOldestRound_append hfront hold]
    exact (List.Sublist.refl front).append
      (List.filter_sublist.trans (List.sublist_cons_self message later))

theorem countP_dropOldestRound_lt (h : ∃ c ∈ components, old c = true) :
    (dropOldestRound components).countP old < components.countP old := by
  rcases exists_first_old components with hnone | ⟨front, message, later, rfl, hfront, hold⟩
  · obtain ⟨c, hmem, hc⟩ := h
    rw [hnone c hmem] at hc
    cases hc
  · rw [dropOldestRound_append hfront hold, List.countP_append, List.countP_append,
      List.countP_cons_of_pos hold]
    have hle := List.Sublist.countP_le (p := old)
      (List.filter_sublist (p := fun c => !isResultForCalls (componentToolCallIds message) c)
        (l := later))
    omega

/-! ### The loop -/

section

variable [AgentPlatform] [StringText]

/-- Whether components are estimated above a budget. -/
def Exceeds (maxTokens : ℕ) (components : List PromptComponent) : Prop :=
  ∃ tokens, estimatedPromptTokens components = .ok tokens ∧ maxTokens < tokens

/-- A run of the loop: some rounds, before each of which the budget is exceeded and there is
history, and then the components fit or no history is left. -/
structure RunsFor (maxTokens n : ℕ) (components : List PromptComponent) : Prop where
  exceeded : ∀ k < n, Exceeds maxTokens (dropOldestRound^[k] components) ∧
    ∃ c ∈ dropOldestRound^[k] components, old c = true
  ended : ¬Exceeds maxTokens (dropOldestRound^[n] components) ∨
    ∀ c ∈ dropOldestRound^[n] components, old c = false

theorem RunsFor.succ (hexceeds : Exceeds maxTokens components)
    (hold : ∃ c ∈ components, old c = true) (h : RunsFor maxTokens n (dropOldestRound components)) :
    RunsFor maxTokens (n + 1) components where
  exceeded k hk := by
    cases k with
    | zero => exact ⟨hexceeds, hold⟩
    | succ k => exact h.exceeded k (Nat.lt_of_succ_lt_succ hk)
  ended := h.ended

/-- **The loop ends**, with the components of a run. -/
theorem exists_rounds (maxTokens : ℕ) {rounds : ℕ}
    (htokens : estimatedPromptTokens components = .ok tokens)
    (hrounds : components.countP old ≤ rounds) :
    ∃ n, applyDropOldest maxTokens rounds components = .ok (dropOldestRound^[n] components) ∧
      RunsFor maxTokens n components := by
  induction rounds generalizing components tokens with
  | zero =>
    refine ⟨0, rfl, fun k hk => absurd hk (Nat.not_lt_zero _), .inr fun c hc => ?_⟩
    rw [Nat.le_zero, List.countP_eq_zero] at hrounds
    simpa using hrounds c hc
  | succ rounds ih =>
    rw [applyDropOldest, htokens, ok_bind]
    by_cases hfits : tokens ≤ maxTokens
    · rw [if_pos hfits]
      refine ⟨0, rfl, fun k hk => absurd hk (Nat.not_lt_zero _), .inl ?_⟩
      rintro ⟨tokens', htokens', hlt⟩
      obtain rfl := Except.ok.inj (htokens.symm.trans htokens')
      omega
    · rw [if_neg hfits]
      cases hindex : oldestHistoricalMessage components with
      | none =>
        exact ⟨0, rfl, fun k hk => absurd hk (Nat.not_lt_zero _),
          .inr (oldestHistoricalMessage_eq_none.mp hindex)⟩
      | some index =>
        have hround : withoutMessage components index = dropOldestRound components := by
          rw [dropOldestRound, hindex]
        have hold : ∃ c ∈ components, old c = true := by
          by_contra hnone
          have hnot : oldestHistoricalMessage components = none :=
            oldestHistoricalMessage_eq_none.mpr fun c hc => by
              rw [← Bool.not_eq_true]
              exact fun h => hnone ⟨c, hc, h⟩
          rw [hindex] at hnot
          cases hnot
        obtain ⟨tokens', -, htokens'⟩ :=
          estimatedPromptTokens_sublist htokens (dropOldestRound_sublist components)
        have hfewer := countP_dropOldestRound_lt hold
        obtain ⟨n, hn, hrun⟩ := ih htokens' (by omega)
        dsimp only
        rw [hround]
        exact ⟨n + 1, hn, hrun.succ ⟨tokens, htokens, Nat.lt_of_not_le hfits⟩ hold⟩

section

omit [AgentPlatform] [StringText]

theorem iterate_dropOldestRound_sublist (n : ℕ) (components : List PromptComponent) :
    (dropOldestRound^[n] components).Sublist components := by
  induction n generalizing components with
  | zero => exact List.Sublist.refl _
  | succ n ih => exact (ih _).trans (dropOldestRound_sublist components)

/-- As long as rounds are exact, the loop removes exchanges. -/
theorem iterate_eq_of_wellScoped (h : ∀ k < n, WellScoped (dropOldestRound^[k] components)) :
    dropOldestRound^[n] components = withoutExchange^[n] components := by
  induction n with
  | zero => rfl
  | succ n ih =>
    rw [Function.iterate_succ_apply', Function.iterate_succ_apply',
      dropOldestRound_eq_withoutExchange (h n (Nat.lt_succ_self n)),
      ih fun k hk => h k (hk.trans (Nat.lt_succ_self n))]

theorem wellScoped_of_not_old (h : ∀ c ∈ components, old c = false) : WellScoped components := by
  rintro front message later rfl - hold
  rw [h message (List.mem_append_right front (.head _))] at hold
  cases hold

end

/-- The rounds of a run are exact if and only if the components are well scoped as long as taking
whole exchanges out of them leaves more than the budget. -/
theorem RunsFor.exact_iff (h : RunsFor maxTokens n components) :
    (∀ k < n, ExactRound (dropOldestRound^[k] components)) ↔
      ∀ k, (∀ l ≤ k, Exceeds maxTokens (withoutExchange^[l] components)) →
        WellScoped (withoutExchange^[k] components) := by
  constructor
  · intro hexact k hexceeds
    have hwellScoped : ∀ j < n, WellScoped (dropOldestRound^[j] components) :=
      fun j hj => exactRound_iff.mp (hexact j hj)
    rcases Nat.lt_or_ge k n with hlt | hge
    · rw [← iterate_eq_of_wellScoped fun j hj => hwellScoped j (hj.trans hlt)]
      exact hwellScoped k hlt
    · -- the run has ended because no history is left, and nothing is removed any more
      have hsame := iterate_eq_of_wellScoped hwellScoped
      have hnone := h.ended.resolve_left (not_not.mpr (hsame ▸ hexceeds n hge))
      rw [hsame] at hnone
      obtain ⟨j, rfl⟩ := Nat.exists_eq_add_of_le' hge
      rw [Function.iterate_add_apply, Function.iterate_fixed (withoutExchange_of_not_old hnone)]
      exact wellScoped_of_not_old hnone
  · intro hwellScoped
    have hrounds : ∀ k ≤ n, ∀ j < k, WellScoped (dropOldestRound^[j] components) := by
      intro k
      induction k with
      | zero => exact fun _ j hj => absurd hj (Nat.not_lt_zero _)
      | succ k ih =>
        intro hk j hj
        rcases Nat.lt_succ_iff_lt_or_eq.mp hj with hlt | rfl
        · exact ih (Nat.le_of_succ_le hk) j hlt
        · have hbefore := ih (Nat.le_of_succ_le hk)
          rw [iterate_eq_of_wellScoped hbefore]
          refine hwellScoped j fun l hl => ?_
          rw [← iterate_eq_of_wellScoped fun i hi => hbefore i (Nat.lt_of_lt_of_le hi hl)]
          exact (h.exceeded l (Nat.lt_of_le_of_lt hl hk)).1
    exact fun k hk => exactRound_iff.mpr (hrounds n le_rfl k hk)

/-- **Dropping the oldest.** The loop ends: with the error of the estimate, or after some rounds
with components of the prompt in their order that fit the budget or have no historical message left.
Every round removes exactly the oldest historical message and the results that answer its calls, all
from history, if and only if, as long as taking such exchanges out leaves more than the budget,
every later result that names a call of the oldest historical message came from history and answers
it. -/
theorem dropOldest_rounds_exact_iff (maxTokens : ℕ) (components : List PromptComponent) :
    (∀ error, estimatedPromptTokens components = .error error →
      applyTransform components (.dropOldest maxTokens) = .error error) ∧
    ∀ tokens, estimatedPromptTokens components = .ok tokens →
      ∃ n, applyTransform components (.dropOldest maxTokens) =
        .ok (dropOldestRound^[n] components) ∧
        RunsFor maxTokens n components ∧ (dropOldestRound^[n] components).Sublist components ∧
        ((∀ k < n, ExactRound (dropOldestRound^[k] components)) ↔
          ∀ k, (∀ l ≤ k, Exceeds maxTokens (withoutExchange^[l] components)) →
            WellScoped (withoutExchange^[k] components)) := by
  constructor
  · intro error herror
    cases components with
    | nil => cases herror
    | cons component components =>
      rw [applyTransform, List.length_cons, applyDropOldest, herror]
      rfl
  · intro tokens htokens
    obtain ⟨n, hn, hrun⟩ := exists_rounds maxTokens htokens List.countP_le_length
    exact ⟨n, hn, hrun, iterate_dropOldestRound_sublist n components, hrun.exact_iff⟩

end

namespace Sample

/-- Strings written as they are. -/
@[reducible] def promptText : StringText where
  escape text := text.toList
  unescape _ := none

/-- A component of the timeline. -/
def timelinePart (historical : Bool) (message : Map) : PromptComponent :=
  .full "message" (if historical then [("historical", .bool true)] else []) (some message) []

/-- A message that makes one call. -/
def callPart (historical : Bool) (id : String) : PromptComponent :=
  timelinePart historical [("role", .string "assistant"), ("content", .string "call"),
    ("tool_calls", .array [.object [("id", .string id)]])]

/-- The result of a call. -/
def returnPart (historical : Bool) (id : String) : PromptComponent :=
  timelinePart historical
    [("role", .string "tool"), ("tool_call_id", .string id), ("content", .string "done")]

/-- A call and its result in the history, and another one in the current run. -/
def twoExchanges (first second : String) : List PromptComponent :=
  [callPart true first, returnPart true first, callPart false second, returnPart false second]

/-- The current run uses an id of the history again: dropping the history takes the result of the
current run too. -/
theorem current_result_dropped :
    @applyTransform agentPlatform promptText (twoExchanges "a" "a") (.dropOldest 3)
        = .ok [callPart false "a"] ∧
      (returnPart false "a").isHistorical = false := by
  decide +kernel

/-- With ids of their own the exchange of the history goes, and the one of the current run stays. -/
theorem exactRound_twoExchanges : ExactRound (twoExchanges "a" "b") := by
  refine @exactRound_of_strips [] _ [callPart false "b", returnPart false "b"] _ nofun (by decide)
    (by decide +kernel) ?_
  refine .remove ⟨by decide, by decide, nofun⟩ (by decide) ?_
  refine .keep (fun h => absurd h.isResult (by decide)) ?_
  exact .keep (fun h => absurd h.made (by decide)) .nil

theorem twoExchanges_dropped_exactly :
    ∃ n, @applyTransform agentPlatform promptText (twoExchanges "a" "b") (.dropOldest 3)
        = .ok (dropOldestRound^[n] (twoExchanges "a" "b")) ∧
      ∀ k < n, ExactRound (dropOldestRound^[k] (twoExchanges "a" "b")) := by
  have htokens : @estimatedPromptTokens agentPlatform promptText (twoExchanges "a" "b") =
      .ok 4 := by
    decide +kernel
  obtain ⟨n, hn, -, -, hexact⟩ :=
    (@dropOldest_rounds_exact_iff agentPlatform promptText 3 (twoExchanges "a" "b")).2 4 htokens
  refine ⟨n, hn, hexact.mpr fun k hexceeds => ?_⟩
  cases k with
  | zero => exact exactRound_iff.mp exactRound_twoExchanges
  | succ k =>
    -- after one exchange the rest fits
    obtain ⟨tokens, hone, hlt⟩ := hexceeds 1 (Nat.succ_le_succ (Nat.zero_le k))
    have hrest : @estimatedPromptTokens agentPlatform promptText
        (withoutExchange^[1] (twoExchanges "a" "b")) = .ok 2 := by
      decide +kernel
    obtain rfl := Except.ok.inj (hrest.symm.trans hone)
    exact absurd hlt (by decide)

end Sample

end Zeta
