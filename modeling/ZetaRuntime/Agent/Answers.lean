import ZetaRuntime.Agent.ToolCalls
import ZetaRuntime.Dispatch.Operations

/-!
# Which tool calls are answered

Between two requests to the model the runner deals with the calls of the reply that are fresh. An id
is fresh if no call of an earlier reply used it, and no earlier call of the same reply. So all calls
of a reply are answered before the next request if and only if the model gave them distinct ids
that it had not used before in the run.
-/

namespace Zeta

open Outcome Program

/-! ### Whole histories -/

/-- Every call of every reply has been dealt with, the last ones just now. -/
structure AtRest (calls : List Call) : Prop where
  answered : ∀ id, id ∈ answeredIds calls ↔ id ∈ usedIds calls
  last : ∀ between output earlier, calls = between ++ .generate (.ok output) :: earlier →
    (∀ call ∈ between, call.isGenerate = false) →
    startedIds between = fresh (usedIds earlier) (callIds output) ∧
      answeredIds between = fresh (usedIds earlier) (callIds output)

/-- Whenever the model was asked, every call of every earlier reply had been dealt with. -/
def Closed (calls : List Call) : Prop :=
  ∀ later reply earlier, calls = later ++ .generate reply :: earlier → AtRest earlier

/-- There is one last request in a history. -/
theorem last_generate_unique {a b : List Call} {x y : Call} {c d : List Call}
    (h : a ++ x :: c = b ++ y :: d) (hx : x.isGenerate = true) (hy : y.isGenerate = true)
    (ha : ∀ call ∈ a, call.isGenerate = false) (hb : ∀ call ∈ b, call.isGenerate = false) :
    a = b ∧ x = y ∧ c = d := by
  induction a generalizing b with
  | nil =>
    cases b with
    | nil =>
      injection h with h h'
      exact ⟨rfl, h, h'⟩
    | cons call b =>
      injection h with h
      rw [h, hb call (.head _)] at hx
      cases hx
  | cons call a ih =>
    cases b with
    | nil =>
      injection h with h
      rw [← h, ha call (.head _)] at hy
      cases hy
    | cons call' b =>
      injection h with h h'
      obtain ⟨rfl, hxy⟩ := ih h' (fun call hmem => ha call (.tail _ hmem))
        fun call hmem => hb call (.tail _ hmem)
      exact ⟨by rw [h], hxy⟩

/-- Whatever is not a request keeps a history closed. -/
theorem Closed.append {calls new : List Call} (h : Closed calls)
    (hnew : ∀ call ∈ new, call.isGenerate = false) : Closed (new ++ calls) := by
  intro later reply earlier heq
  rcases List.append_eq_append_iff.mp heq with ⟨rest, -, hcalls⟩ | ⟨rest, hnew', hcalls⟩
  · exact h rest reply earlier hcalls
  · cases rest with
    | nil => exact h [] reply earlier (by simpa using hcalls.symm)
    | cons call rest =>
      injection hcalls with hcall
      have := hnew call (by rw [hnew']; simp)
      rw [← hcall] at this
      cases this

theorem Closed.silent {W : Type} {run run' : Run W} (h : Closed run.calls)
    (hrun : Silent run run') :
    Closed run'.calls := by
  obtain ⟨_, _, ⟨new, hcalls, hnew, -, -⟩, -, -⟩ := hrun
  rw [hcalls]
  exact h.append hnew

/-- A request in a history at rest keeps it closed. -/
theorem Closed.generate {calls : List Call} (h : Closed calls) (hrest : AtRest calls)
    (reply : Except AgentError ModelOutput) : Closed (.generate reply :: calls) := by
  rintro (_ | ⟨call, later⟩) reply' earlier heq
  · injection heq with _ heq
    exact heq ▸ hrest
  · injection heq with _ heq
    exact h later reply' earlier heq

/-- A history comes to rest when the fresh calls of its last reply are dealt with. -/
theorem AtRest.of_last {between earlier : List Call} {output : ModelOutput}
    (hbetween : ∀ call ∈ between, call.isGenerate = false)
    (hearlier : ∀ id, id ∈ answeredIds earlier ↔ id ∈ usedIds earlier)
    (hstarted : startedIds between = fresh (answeredIds earlier) (callIds output))
    (hanswered : answeredIds between = fresh (answeredIds earlier) (callIds output)) :
    AtRest (between ++ .generate (.ok output) :: earlier) where
  answered id := by
    have hused : usedIds (between ++ .generate (.ok output) :: earlier)
        = callIds output ++ usedIds earlier := by
      rw [usedIds_append, usedIds_eq_nil hbetween]
      rfl
    rw [hused, answeredIds_append, answeredIds_generate, hanswered, List.mem_append,
      List.mem_append, mem_or_mem_fresh, hearlier, or_comm]
  last between' output' earlier' heq hbetween' := by
    obtain ⟨rfl, houtput, rfl⟩ := last_generate_unique heq rfl rfl hbetween hbetween'
    cases houtput
    rw [hstarted, hanswered, fresh_congr hearlier]
    exact ⟨rfl, rfl⟩

/-! ### The loop -/

section Loop

variable {W : Type} {services : Services W} {invocation : AgentInvocation}

/-- What holds throughout a run. -/
structure Recording (run : Run W) : Prop where
  faithful : run.Faithful
  closed : Closed run.calls
  unlimited : run.result.stopReason ≠ some .maxModelCalls

theorem Recording.silent {run run' : Run W} (h : Recording run) (hrun : Silent run run') :
    Recording run' := by
  obtain ⟨_, _, hextends⟩ := hrun
  exact ⟨hextends.faithful h.faithful, h.closed.silent hextends.silent,
    hextends.unlimited h.unlimited⟩

/-- The calls that are pending are those of the last reply, and nothing has been done about them. -/
def Waiting (run : Run W) : Prop :=
  ∃ quiet output earlier, run.calls = quiet ++ .generate (.ok output) :: earlier ∧
    (∀ call ∈ quiet, call.isGenerate = false) ∧ startedIds quiet = [] ∧ answeredIds quiet = [] ∧
    run.pendingToolCalls = assistantToolCalls output.message ∧
    ∀ id, id ∈ answeredIds earlier ↔ id ∈ usedIds earlier

/-- The state at the head of the loop. -/
def AtHead (run : Run W) : Prop :=
  Recording run ∧ (run.pendingToolCalls = [] ∧ AtRest run.calls ∨ Waiting run)

/-- The state when a run ends. -/
def Ended (run : Run W) : Prop :=
  Closed run.calls ∧ (run.result.stopReason = some .maxModelCalls → AtRest run.calls)

theorem Recording.ended {run : Run W} (h : Recording run) : Ended run :=
  ⟨h.closed, fun hstop => absurd hstop h.unlimited⟩

theorem Recording.ended_of_silent {run run' : Run W} (h : Recording run) (hrun : Silent run run') :
    Ended run' := (h.silent hrun).ended

/-- Dealing with the calls of the last reply brings the history to rest. -/
theorem Waiting.atRest {run run' : Run W} (h : Waiting run)
    (hrun : Extends (fresh (answeredIds run.calls) (idsFrom 0 run.pendingToolCalls))
      (fresh (answeredIds run.calls) (idsFrom 0 run.pendingToolCalls)) run run') :
    AtRest run'.calls := by
  obtain ⟨quiet, output, earlier, hcalls, hquiet, hstarted, hanswered, hpending, hearlier⟩ := h
  have hids : idsFrom 0 run.pendingToolCalls = callIds output := by
    simp [idsFrom, callIds, hpending]
  have hseen : answeredIds run.calls = answeredIds earlier := by
    rw [hcalls, answeredIds_append, hanswered, List.append_nil, answeredIds_generate]
  rw [hids, hseen] at hrun
  obtain ⟨new, hcalls', hnew, hnewStarted, hnewAnswered⟩ := hrun.calls
  rw [hcalls', hcalls, ← List.append_assoc]
  refine AtRest.of_last ?_ hearlier ?_ ?_
  · intro call hmem
    rcases List.mem_append.mp hmem with hmem | hmem
    · exact hnew call hmem
    · exact hquiet call hmem
  · rw [startedIds_append, hstarted, List.nil_append, hnewStarted]
  · rw [answeredIds_append, hanswered, List.nil_append, hnewAnswered]

section

variable [AgentPlatform]

theorem wp_runPending_atRest (capabilities : CapabilitySet) {run : Run W} (hhead : AtHead run) :
    wp (runPending services invocation capabilities)
      (fun control run' => Recording run' ∧ (control = .continue → AtRest run'.calls))
      (fun _ => Ended) run := by
  obtain ⟨hrecording, hpending⟩ := hhead
  unfold runPending
  rw [wp_bind, wp_get]
  split
  case isTrue hnone =>
    refine ⟨hrecording, fun _ => ?_⟩
    rcases hpending with ⟨-, hrest⟩ | hwaiting
    · exact hrest
    · exact hwaiting.atRest (by simpa [hnone, idsFrom, fresh] using Extends.of_still (refl run))
  case isFalse hsome =>
    have hwaiting := hpending.resolve_left fun h => hsome h.1
    unfold runPendingToolBatch
    rw [wp_bind, wp_get, wp_bind, wp_modify]
    have htaken : Extends [] [] run { run with
        pendingToolCalls := [], pendingModelTelemetry := [], pendingToolParentId := none } :=
      ⟨⟨[], rfl, by simp, rfl, rfl⟩, id, id⟩
    refine wp_mono
      (wp_runToolCalls_extends capabilities _ _ _ 0 (htaken.faithful hrecording.faithful))
      (fun control run' hend => ?_) fun _ _ h => hrecording.ended_of_silent (htaken.silent.trans h)
    have hend := hend.of_extends htaken
    exact ⟨hrecording.silent hend.1, fun hcontrol => hwaiting.atRest (hend.2 hcontrol)⟩

end

/-- A reply that leaves calls leaves them pending. -/
theorem wp_handleReply_atHead (promptObjectId : String) {reply : Except AgentError ModelOutput}
    {run : Run W} (earlier : List Call) (hrecording : Recording run)
    (hcalls : run.calls = .generate reply :: earlier)
    (hearlier : ∀ id, id ∈ answeredIds earlier ↔ id ∈ usedIds earlier) :
    wp (handleReply services invocation promptObjectId reply)
      (fun control run' => Recording run' ∧ (control = .continue → AtHead run'))
      (fun _ => Ended) run := by
  cases reply with
  | error error =>
    unfold handleReply
    rw [wp_bind]
    refine wp_mono (quiet_of_still still_abortReason run) (fun reason checked hchecked => ?_)
      fun _ _ h => hrecording.ended_of_silent h.silent
    cases reason with
    | none => exact hrecording.ended_of_silent hchecked.silent
    | some reason => exact ⟨hrecording.silent hchecked.silent, by simp⟩
  | ok output =>
    unfold handleReply
    rw [wp_bind]
    refine wp_mono (quiet_of_still (still_step _) run) (fun _ stepped hstepped => ?_)
      fun _ _ h => hrecording.ended_of_silent h.silent
    rw [wp_bind]
    refine wp_mono (quiet_of_still (still_recordTelemetry _) stepped) (fun _ metered hmetered => ?_)
      fun _ _ h => hrecording.ended_of_silent (hstepped.trans h).silent
    rw [wp_bind, wp_ask]
    have hasked := (hstepped.trans hmetered).trans
      (quiet_of_still (still_ask services.abort) metered)
    split
    · exact ⟨hrecording.silent hasked.silent, by simp⟩
    · rw [wp_bind]
      have hmodel : Moves (Extends [] []) (recordModel services invocation output promptObjectId) :=
        .of_bind (quiet_of_still still_nextEventId) fun _ =>
          .of_bind (quiet_of_still still_recordTrace) fun _ => .of_bind .of_get fun _ =>
            moves_recordDurableDraft_aside _ (aside_modelDraft _ _ _ _ _)
      refine wp_mono (hmodel _) (fun eventId recorded hrecorded => ?_)
        fun _ _ h => hrecording.ended_of_silent (hasked.trans h).silent
      have hrecorded : Extends [] [] run recorded := hasked.trans hrecorded
      unfold takeUp
      split
      · refine wp_mono (Q := fun control run' => Silent recorded run' ∧ control = .finish) ?_ ?_
          fun _ _ h => hrecording.ended_of_silent (hrecorded.silent.trans h)
        · exact ⟨⟨[], [], ⟨[], rfl, by simp, rfl, rfl⟩, id, fun _ => by simp⟩, rfl⟩
        · rintro control run' ⟨hsilent, rfl⟩
          exact ⟨hrecording.silent (hrecorded.silent.trans hsilent), by simp⟩
      · have hpending : Extends [] [] run { recorded with
            pendingToolCalls := assistantToolCalls output.message
            pendingModelTelemetry := output.telemetry
            pendingToolParentId := some eventId } :=
          hrecorded.trans ⟨⟨[], rfl, by simp, rfl, rfl⟩, id, id⟩
        obtain ⟨new, hnewCalls, hnew, hnewStarted, hnewAnswered⟩ := hpending.calls
        refine ⟨hrecording.silent hpending.silent, fun _ =>
          ⟨hrecording.silent hpending.silent, .inr ?_⟩⟩
        exact ⟨new, output, earlier, hnewCalls.trans (by rw [hcalls]), hnew, hnewStarted,
          hnewAnswered, rfl, hearlier⟩

/-- A turn in a history at rest leads back to the head of the loop. -/
theorem wp_runTurnUnlessAborted_atHead {run : Run W} (hrecording : Recording run)
    (hrest : AtRest run.calls) :
    wp (runTurnUnlessAborted services invocation)
      (fun control run' => Recording run' ∧ (control = .continue → AtHead run'))
      (fun _ => Ended) run := by
  unfold runTurnUnlessAborted
  rw [wp_bind]
  refine wp_mono (still_step _ run) (fun _ stepped hstepped => ?_)
    fun _ _ h => hrecording.ended_of_silent (Extends.of_still h).silent
  rw [wp_bind]
  refine wp_mono (still_abortReason stepped) (fun reason checked hchecked => ?_)
    fun _ _ h => hrecording.ended_of_silent (Extends.of_still (Trans.trans hstepped h)).silent
  have hchecked : run.Still checked := Trans.trans hstepped hchecked
  cases reason with
  | some reason => exact ⟨hrecording.silent (Extends.of_still hchecked).silent, by simp⟩
  | none =>
    dsimp only
    unfold runModelTurn
    rw [wp_bind]
    refine wp_mono (still_step _ checked) (fun _ building hbuilding => ?_)
      fun _ _ h => hrecording.ended_of_silent (Extends.of_still (Trans.trans hchecked h)).silent
    rw [wp_bind, wp_ask, wp_bind]
    have hprompted : run.Still _ :=
      Trans.trans (Trans.trans hchecked hbuilding) (still_ask services.buildPrompt building)
    cases (services.buildPrompt building.world).1 with
    | error error => exact hrecording.ended_of_silent (Extends.of_still hprompted).silent
    | ok promptObjectId =>
      rw [wp_orFail_ok, wp_bind]
      refine wp_mono (still_step _ _) (fun _ calling hcalling => ?_)
        fun _ _ h => hrecording.ended_of_silent (Extends.of_still (Trans.trans hprompted h)).silent
      rw [wp_bind, wp_ask, wp_bind, wp_remember]
      have hasked : run.Still _ :=
        Trans.trans (Trans.trans hprompted hcalling) (still_ask services.generate calling)
      have hcalls := hasked.calls
      have hfaithful := (Extends.of_still hasked).faithful hrecording.faithful
      have hunlimited := (Extends.of_still hasked).unlimited hrecording.unlimited
      refine wp_handleReply_atHead promptObjectId run.calls ⟨?_, ?_, hunlimited⟩ ?_
        hrest.answered
      · exact Eq.trans hfaithful (recordedDrafts_generate _ _).symm
      · exact hcalls ▸ hrecording.closed.generate hrest _
      · exact congrArg _ hcalls

theorem wp_proceed_ended {rest : RunM W Unit} {control : RunLoopControl} {run : Run W}
    (hrecording : Recording run) (hrest : control = .continue → Ends rest Ended run) :
    Ends (proceed services invocation rest control) Ended run := by
  cases control with
  | «continue» => exact hrest rfl
  | finish => exact hrecording.ended
  | abort reason causedBy =>
    have habort : Moves (Extends [] []) (abortRun services invocation reason causedBy) :=
      .of_bind (quiet_of_still (still_step _)) fun _ =>
        .of_bind (moves_recordDurableDraft_aside _ (aside_abortDraft _ _ _)) fun _ => .of_throw _
    exact Ends.mono (habort run) fun _ h => hrecording.ended_of_silent h.silent

variable [AgentPlatform]

/-- The loop, by induction on the model calls that are left. -/
theorem wp_runLoop_ended (capabilities : CapabilitySet) (left : ℕ) {run : Run W}
    (hhead : AtHead run) : Ends (runLoop services invocation capabilities left) Ended run := by
  induction left generalizing run with
  | zero =>
    unfold runLoop
    rw [Ends, wp_bind]
    refine wp_mono (wp_runPending_atRest capabilities hhead) ?_ fun _ _ h => h
    rintro control pending ⟨hrecording, hrest⟩
    refine wp_proceed_ended hrecording fun hcontrol => ?_
    exact ⟨hrecording.closed, fun _ => hrest hcontrol⟩
  | succ left ih =>
    unfold runLoop
    rw [Ends, wp_bind]
    refine wp_mono (wp_runPending_atRest capabilities hhead) ?_ fun _ _ h => h
    rintro control pending ⟨hrecording, hrest⟩
    refine wp_proceed_ended hrecording fun hcontrol => ?_
    rw [Ends, wp_bind]
    refine wp_mono (wp_runTurnUnlessAborted_atHead hrecording (hrest hcontrol)) ?_ fun _ _ h => h
    rintro control turned ⟨hrecording, hturned⟩
    exact wp_proceed_ended hrecording fun hcontrol => ih (hturned hcontrol)

/-! ### The whole run -/

/-- A point at which the last reply of a history has been left behind: the model was asked again, or
the run ended because it may not be asked again. -/
def LeftBehind (run : Run W) (calls : List Call) : Prop :=
  (∃ later reply, run.calls = later ++ .generate reply :: calls) ∨
    run.calls = calls ∧ run.result.stopReason = some .maxModelCalls

/-- When a reply is left behind, its calls have been recorded as started once each and answered once
each if and only if the model gave them distinct ids that no earlier reply used. -/
theorem run_answers_iff (services : Services W) (invocation : AgentInvocation)
    (declarations : List ResolvedCapability) (world : W) (between : List Call)
    (output : ModelOutput) (earlier : List Call)
    (hleft : LeftBehind
      (after (AgentRunner.run services invocation declarations) (Run.initial invocation world))
      (between ++ .generate (.ok output) :: earlier))
    (hbetween : ∀ call ∈ between, call.isGenerate = false) :
    (startedIds between = callIds output ∧ answeredIds between = callIds output) ↔
      (callIds output).Nodup ∧ ∀ id ∈ callIds output, id ∉ usedIds earlier := by
  have hinitial : AtHead (Run.initial invocation world) := by
    refine ⟨⟨rfl, ?_, by simp [Run.initial, AgentRunResult.default]⟩, .inl ⟨rfl, ?_⟩⟩
    · intro later reply earlier heq
      simp [Run.initial] at heq
    · refine ⟨fun id => Iff.rfl, fun between output earlier heq => ?_⟩
      simp [Run.initial] at heq
  have hended : Ended (after (AgentRunner.run services invocation declarations)
      (Run.initial invocation world)) := by
    refine wp_after ?_
    unfold AgentRunner.run
    cases CapabilitySet.new invocation declarations with
    | error error => exact hinitial.1.ended
    | ok capabilities =>
      rw [Ends, wp_bind, wp_orFail_ok]
      exact wp_runLoop_ended capabilities _ hinitial
  have hrest : AtRest (between ++ .generate (.ok output) :: earlier) := by
    rcases hleft with ⟨later, reply, hcalls⟩ | ⟨hcalls, hstop⟩
    · exact hended.1 later reply _ hcalls
    · exact hcalls ▸ hended.2 hstop
  obtain ⟨hstarted, hanswered⟩ := hrest.last between output earlier rfl hbetween
  rw [hstarted, hanswered, and_self, fresh_eq_self_iff]

end Loop

namespace Sample

/-- Libraries for runs on fixed replies: the only arguments are none, and every schema accepts. -/
@[reducible] def agentPlatform : AgentPlatform :=
  { platform with
    parseJson := fun text => if text = "\x7b\x7d" then .ok (.object []) else .error "unreadable"
    schemaErrors := fun _ _ => none
    formatUtc := fun _ => none }

/-- The replies of a model to come, and how many identities were handed out. -/
structure Script where
  replies : List ModelOutput
  named : ℕ

/-- Services that follow a script, accept every draft and never abort. -/
def scripted : Services Script where
  buildPrompt w := (.ok "prompt", w)
  recordTrace w := (.ok (), w)
  generate w := match w.replies with
    | [] => (.error ⟨.model, "the script has ended"⟩, w)
    | reply :: replies => (.ok reply, { w with replies })
  execute _ w := (.ok [("ok", .bool true)], w)
  record eventId _ w := (.ok eventId, w)
  nextId w := (.ok ("event-" ++ toString w.named), { w with named := w.named + 1 })
  abort w := (none, w)
  nowMillis w := (0, w)
  contextBudget w := (.ok [("ok", .bool true)], w)

/-- An invocation without grants that may ask the model three times. -/
def invocation : AgentInvocation where
  allowedCapabilities := []
  maxModelCalls := 3
  baseDirectory := none
  effectScope := none
  sourceQueueItemId := none
  sourceAgentId := none
  sourceSessionId := none
  causedBy := none
  eventSource := "agent:helper"
  sessionId := none
  runId := none
  turnId := none
  deadlineMs := none
  publishableEvents := []

/-- A reply with one tool call, under an id or without one. -/
def calling (id : Map) : ModelOutput :=
  ⟨[("tool_calls", .array [.object (id ++ [("function", .object
    [("name", .string "lookup"), ("arguments", .string "\x7b\x7d")])])])], [], false⟩

/-- A reply without tool calls. -/
def answering : ModelOutput := ⟨[("content", .string "done")], [], false⟩

/-- The end of a run that follows a script. -/
def scriptedRun (replies : List ModelOutput) : Run Script :=
  after (@AgentRunner.run agentPlatform Script scripted invocation [])
    (Run.initial invocation ⟨replies, 0⟩)

/-- Two replies whose calls have ids of their own. -/
def named :
    List ModelOutput := [calling [("id", .string "a")], calling [("id", .string "b")], answering]

/-- The call of the second reply is started once and answered once before the next request. -/
theorem named_call_answered :
    ∃ between earlier, LeftBehind (scriptedRun named)
        (between ++ .generate (.ok (calling [("id", .string "b")])) :: earlier) ∧
      startedIds between = callIds (calling [("id", .string "b")]) ∧
      answeredIds between = callIds (calling [("id", .string "b")]) := by
  have hleft : LeftBehind (scriptedRun named) (((scriptedRun named).calls.drop 2).take 3
      ++ .generate (.ok (calling [("id", .string "b")])) :: (scriptedRun named).calls.drop 6) :=
    .inl ⟨(scriptedRun named).calls.take 1, .ok answering, by decide +kernel⟩
  exact ⟨_, _, hleft, (@run_answers_iff Script agentPlatform scripted invocation [] ⟨named, 0⟩ _
    (calling [("id", .string "b")]) _ hleft (by decide +kernel)).mpr
      ⟨by decide +kernel, by decide +kernel⟩⟩

/-- A model that gives no ids calls a tool in each of two replies. Both calls get the id of their
position, and the second is neither started nor answered before the next request. -/
theorem repeated_call_unanswered :
    ∃ later reply between earlier,
      (scriptedRun [calling [], calling [], answering]).calls
        = later ++ .generate reply :: (between ++ .generate (.ok (calling [])) :: earlier) ∧
      (∀ call ∈ between, call.isGenerate = false) ∧
      callIds (calling []) = ["call-0"] ∧ startedIds between = [] ∧ answeredIds between = [] := by
  refine ⟨(scriptedRun [calling [], calling [], answering]).calls.take 1, .ok answering,
    ((scriptedRun [calling [], calling [], answering]).calls.drop 2).take 1,
    (scriptedRun [calling [], calling [], answering]).calls.drop 4, ?_, ?_, ?_, ?_, ?_⟩
  all_goals decide +kernel

end Sample

end Zeta
