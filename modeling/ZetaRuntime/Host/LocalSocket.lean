import ZetaRuntime.Ipc.Closing
import ZetaRuntime.Ipc.Framing

/-!
# Connections of the local socket

The loop of a connection waits for several things at once: a frame from the client, a notification
of the runtime, the end of the host. Whichever comes first is served, and the other waits are
dropped and begun again in the next round.

The wait for a frame collects the bytes of a line as they come. What it has collected belongs to the
wait and not to the connection: bytes that are not consumed yet stay in the buffered reader, but a
line that is half read is gone when a notification is served in between, and the rest of it is taken
for a line of its own.
-/

namespace Zeta.Ipc

open Outcome

variable {overlong : Bool} {line part stream : List UInt8}

/-- What a local socket is for. -/
inductive LocalSocketPurpose where
  | application
  | control
  deriving DecidableEq, Repr

/-- The terms on which a local connection is opened. -/
def LocalSocketPurpose.config (purpose : LocalSocketPurpose) (version instanceId : String) :
    RuntimeConfig where
  runtime := ⟨"zeta", version⟩
  config := [("instance_id", .string instanceId)]
  supportedRoles := match purpose with
    | .application => [.client, .source]
    | .control => [.client]
  heartbeatSeconds := .finite 10
  maxInFlight := 64

/-- Who may shut down whom on a local connection. -/
def LocalSocketPurpose.shutdownDirection : LocalSocketPurpose → ShutdownDirection
  | .application => .disabled
  | .control => .remoteSupervisesLocal

/-- The bytes of one read, of which there is at least one. -/
abbrev Chunk := { bytes : List UInt8 // bytes ≠ [] }

/-- Why a connection is over. -/
inductive Ending where
  /-- The client sent everything. -/
  | endOfStream
  /-- The session closed, an action could not be carried out, or the host ended. -/
  | stopped
  deriving DecidableEq, Repr

/-- One connection of a client. -/
structure LocalConnection where
  /-- What the socket will give, read by read. Then the stream ends. -/
  chunks : List Chunk
  /-- The bytes in the buffered reader. -/
  buffer : List UInt8
  /-- The line that the present wait has collected. -/
  line : List UInt8
  /-- Whether that line is too long. -/
  overlong : Bool
  session : Session
  /-- The frames that were handled. -/
  frames : List Frame
  written : List Message
  ending : Option Ending

/-- What is served in one round. -/
inductive Turn where
  /-- The wait for a frame gets bytes, or the end of the stream. The client may not take what is
  written. -/
  | read (writable : Bool)
  | notified (params : Map) (writable : Bool)
  /-- Notifications were missed. -/
  | lagged
  /-- The host ends. -/
  | stop

/-! ### Actions -/

/-- The effect of some actions: what is written, and whether the connection is over. -/
structure Driven where
  session : Session
  written : List Message
  ended : Bool

section

variable [Wire]

/-- Have a request answered. -/
def answerRequest (handler : Request → RequestOutcome) (purpose : LocalSocketPurpose) (s : Session)
    (request : Request) : Except IpcError (List Action × Session) :=
  let completed := match purpose with
    | .application =>
      match handler request with
      | .ok result => s.completeRequest request.id result
      | .error error => s.failRequest request.id error
    | .control => s.failRequest request.id ⟨methodNotFoundCode, "Method not found", none⟩
  match completed with
  | .ok r => .ok r
  | .error error => s.failRequest request.id error.toObject

/-- Carry out actions. An answer is written after the actions that are already there. -/
def driveLocalActions (handler : Request → RequestOutcome) (purpose : LocalSocketPurpose) :
    Session → List Message → List Action → Driven
  | s, answers, [] => ⟨s, answers, false⟩
  | s, answers, .send message :: actions =>
    let rest := driveLocalActions handler purpose s answers actions
    { rest with written := message :: rest.written }
  | s, answers, .handleRequest request :: actions =>
    match answerRequest handler purpose s request with
    | .ok (completed, s) => driveLocalActions handler purpose s (answers ++ sends completed) actions
    | .error _ => ⟨s, [], true⟩
  | s, _, .handleNotification _ :: _ => ⟨s, [], true⟩
  | s, _, .requestResolved _ :: _ => ⟨s, [], true⟩
  | s, _, .violation _ :: _ => ⟨s, [], true⟩
  | s, _, .close _ :: _ => ⟨s, [], true⟩

namespace LocalConnection

omit [Wire] in
/-- Go on after some actions, unless they end the connection or the client does not take a message.
-/
def settle (c : LocalConnection) (driven : Driven) (writable : Bool) : LocalConnection :=
  { c with
    session := driven.session
    written := c.written ++ driven.written
    ending := if driven.ended || (!writable && !driven.written.isEmpty) then some .stopped
      else none }

variable [StringText]

/-- What a frame makes the session do. -/
def respond (handler : Request → RequestOutcome) (purpose : LocalSocketPurpose) (s : Session) :
    Frame → Driven
  | .message message =>
    let (actions, s) := s.receive message
    driveLocalActions handler purpose s [] actions
  | .violation violation =>
    ⟨s, [.error ⟨violation.requestId,
      .protocol violation.code violation.rule violation.detail⟩], false⟩

/-- Handle a frame. The wait that read it is over. -/
def handle (handler : Request → RequestOutcome) (purpose : LocalSocketPurpose) (c : LocalConnection)
    (writable : Bool) (frame : Frame) : LocalConnection :=
  settle { c with line := [], overlong := false, frames := c.frames ++ [frame] }
    (respond handler purpose c.session frame) writable

omit [StringText] in
/-- What a notification makes the session do. Before initialization, and on a control socket, it is
dropped. -/
def forward (handler : Request → RequestOutcome) (purpose : LocalSocketPurpose) (s : Session)
    (params : Map) : Driven :=
  match purpose with
  | .control => ⟨s, [], false⟩
  | .application =>
    if s.state = .initialized then
      match s.sendNotification "event" params with
      | .ok (actions, s) => driveLocalActions handler purpose s [] actions
      | .error _ => ⟨s, [], false⟩
    else ⟨s, [], false⟩

/-! ### The wait for a frame -/

omit [Wire] [StringText] in
/-- The line and its mark after some more bytes. No more bytes are kept than show that it is too
long. -/
def collect (line : List UInt8) (overlong : Bool) (data : List UInt8) : List UInt8 × Bool :=
  if overlong then (line, true)
  else
    let remaining := maxFrameBytes + 1 - line.length
    let copyLength := min data.length remaining
    let line := line ++ data.take copyLength
    (line, copyLength < data.length || maxFrameBytes < line.length)

variable [LineText]

/-- Handle a line that is complete. There is always a frame in it. -/
def handleLine (handler : Request → RequestOutcome) (purpose : LocalSocketPurpose)
    (c : LocalConnection) (writable terminated : Bool) : LocalConnection :=
  match decodeLocalFrame c.line terminated with
  | some frame => c.handle handler purpose writable frame
  | none => { c with ending := some .endOfStream }

/-- The wait takes what the buffer holds, up to a newline. -/
def consume (handler : Request → RequestOutcome) (purpose : LocalSocketPurpose)
    (c : LocalConnection) (writable : Bool) : LocalConnection :=
  let data := c.buffer.takeWhile (· ≠ newline)
  let collected := collect c.line c.overlong data
  if newline ∈ c.buffer then
    handleLine handler purpose { c with
      buffer := (c.buffer.dropWhile (· ≠ newline)).tail
      line := collected.1
      overlong := collected.2 } writable true
  else { c with buffer := [], line := collected.1, overlong := collected.2 }

/-- One round of the wait for a frame. -/
def readLocalFrame (handler : Request → RequestOutcome) (purpose : LocalSocketPurpose)
    (c : LocalConnection) (writable : Bool) : LocalConnection :=
  if c.buffer = [] then
    match c.chunks with
    | chunk :: chunks => consume handler purpose { c with chunks, buffer := chunk } writable
    | [] =>
      if c.line = [] ∧ c.overlong = false then { c with ending := some .endOfStream }
      else handleLine handler purpose c writable false
  else consume handler purpose c writable

/-! ### The loop -/

/-- One round of the loop. What else is served drops the wait for a frame. -/
def take (handler : Request → RequestOutcome) (purpose : LocalSocketPurpose) (c : LocalConnection)
    (turn : Turn) : LocalConnection :=
  if c.ending.isSome then c
  else match turn with
    | .read writable => c.readLocalFrame handler purpose writable
    | .notified params writable =>
      settle { c with line := [], overlong := false } (forward handler purpose c.session params)
        writable
    | .lagged => { c with line := [], overlong := false }
    | .stop => { c with ending := some .stopped }

def run (handler : Request → RequestOutcome) (purpose : LocalSocketPurpose) (c : LocalConnection)
    (turns : List Turn) : LocalConnection :=
  turns.foldl (take handler purpose) c

omit [Wire] [StringText] [LineText] in
/-- A connection that was just accepted. -/
def start (purpose : LocalSocketPurpose) (version instanceId : String) (chunks : List Chunk) :
    LocalConnection where
  chunks
  buffer := []
  line := []
  overlong := false
  session := .runtime (purpose.config version instanceId) purpose.shutdownDirection
  frames := []
  written := []
  ending := none

end LocalConnection

end

/-! ### Lines that are not disturbed -/

/-- A turn that does not drop a line that is half read. -/
def Turn.Spares (c : LocalConnection) : Turn → Prop
  | .notified _ _ | .lagged => c.line = []
  | .read _ | .stop => True

instance (c : LocalConnection) : DecidablePred (Turn.Spares c)
  | .notified _ _ | .lagged => inferInstanceAs (Decidable (c.line = []))
  | .read _ | .stop => isTrue trivial

namespace LocalConnection

variable {c : LocalConnection}

/-- What the wait keeps of a line that it has read this far. -/
structure Collected (part line : List UInt8) (overlong : Bool) : Prop where
  line : line = part.take (maxFrameBytes + 1)
  overlong : overlong = decide (maxFrameBytes < part.length)

theorem collected_nil : Collected [] [] false := ⟨rfl, rfl⟩

/-- Collecting more bytes of a line keeps the same of the longer line. -/
theorem Collected.collect (h : Collected part line overlong) (data : List UInt8) :
    Collected (part ++ data) (collect line overlong data).1 (collect line overlong data).2 := by
  obtain ⟨rfl, rfl⟩ := h
  unfold LocalConnection.collect
  by_cases hlong : maxFrameBytes < part.length
  · simp only [hlong, decide_true, if_true]
    refine ⟨?_, ?_⟩
    · rw [List.take_append_of_le_length hlong]
    · rw [List.length_append, eq_comm, decide_eq_true_iff]
      omega
  · have hshort : part.take (maxFrameBytes + 1) = part := List.take_of_length_le (by omega)
    simp only [hlong, decide_false, Bool.false_eq_true, if_false, hshort]
    have htake : data.take (min data.length (maxFrameBytes + 1 - part.length))
        = data.take (maxFrameBytes + 1 - part.length) := by
      rw [min_comm, List.take_eq_take_min, min_assoc, min_self, ← List.take_eq_take_min]
    refine ⟨?_, ?_⟩
    · rw [htake, List.take_append, hshort]
    · rw [htake, Bool.eq_iff_iff]
      simp only [Bool.or_eq_true, decide_eq_true_eq, List.length_append, List.length_take]
      omega

theorem Collected.eq_nil_iff (h : Collected part line overlong) : line = [] ↔ part = [] := by
  rw [h.line, List.take_eq_nil_iff]
  simp

/-- The bytes that are still to come, after those that were consumed. -/
def ahead (c : LocalConnection) : List UInt8 := c.buffer ++ (c.chunks.map Subtype.val).flatten

/-- Bytes with a newline in them, split at the first. -/
theorem takeWhile_append_newline {bytes : List UInt8} (h : newline ∈ bytes) :
    bytes = bytes.takeWhile (· ≠ newline) ++ newline :: (bytes.dropWhile (· ≠ newline)).tail := by
  have hne : bytes.dropWhile (· ≠ newline) ≠ [] := by
    intro hnil
    simpa using List.dropWhile_eq_nil_iff.mp hnil newline h
  have hhead : (bytes.dropWhile (· ≠ newline)).head hne = newline := by
    simpa using List.head_dropWhile_not (· ≠ newline) hne
  conv_lhs => rw [← List.takeWhile_append_dropWhile (p := (· ≠ newline)) (l := bytes)]
  rw [← List.cons_head_tail hne, hhead, List.tail_cons]

section

variable [LineText]

/-- A connection that has lost nothing: the frames of the stream are those that were handled, and
those of the line that is half read and of what follows it. -/
structure Open (stream : List UInt8) (c : LocalConnection) : Prop where
  live : c.ending = none
  tracks : ∃ part, newline ∉ part ∧ Collected part c.line c.overlong ∧
    streamFrames stream = c.frames ++ streamFrames (part ++ c.ahead)

/-- What is known of a connection that has lost nothing, also when it is over. -/
def Tracks (stream : List UInt8) (c : LocalConnection) : Prop :=
  match c.ending with
  | none => Open stream c
  | some .endOfStream => c.frames = streamFrames stream
  | some .stopped => c.frames <+: streamFrames stream

theorem Open.toTracks (h : Open stream c) : Tracks stream c := by
  unfold Tracks
  rw [h.live]
  exact h

/-- Actions may end a connection, and leave its frames alone. -/
theorem Open.settle (h : Open stream c) (driven : Driven) (writable : Bool) :
    Tracks stream (c.settle driven writable) := by
  unfold Tracks LocalConnection.settle
  obtain ⟨part, hpart, hcollected, hframes⟩ := h.tracks
  dsimp only
  by_cases hover : (driven.ended || (!writable && !driven.written.isEmpty)) = true
  · rw [if_pos hover]
    exact ⟨_, hframes.symm⟩
  · rw [if_neg hover]
    exact ⟨rfl, part, hpart, hcollected, hframes⟩

theorem streamFrames_nil : streamFrames [] = [] := by
  rw [streamFrames_of_not_mem (by simp)]
  rfl

variable [Wire] [StringText]

/-- A line that was read to its end is handled, and the wait for the next one begins. -/
theorem handleLine_tracks (handler : Request → RequestOutcome) (purpose : LocalSocketPurpose)
    {writable terminated : Bool} (hlive : c.ending = none)
    (hcollected : Collected part c.line c.overlong) (hline : terminated = true ∨ part ≠ [])
    (hframes : streamFrames stream =
      c.frames ++ (streamFrame part terminated ++ streamFrames c.ahead)) :
    Tracks stream (c.handleLine handler purpose writable terminated) := by
  have hsome : (decodeLocalFrame c.line terminated).isSome = true :=
    decodeLocalFrame_isSome (hline.imp_right (mt hcollected.eq_nil_iff.mp))
  obtain ⟨frame, hframe⟩ := Option.isSome_iff_exists.mp hsome
  unfold handleLine
  rw [hframe]
  refine Open.settle (c := { c with line := [], overlong := false, frames := c.frames ++ [frame] })
    ⟨hlive, [], by simp, collected_nil, ?_⟩ _ _
  rw [hframes, streamFrame, ← hcollected.line, hframe]
  simp [ahead]

/-- The wait consumes the buffer. -/
theorem Open.consume (handler : Request → RequestOutcome) (purpose : LocalSocketPurpose)
    (h : Open stream c) (writable : Bool) : Tracks stream (c.consume handler purpose writable) := by
  obtain ⟨part, hpart, hcollected, hframes⟩ := h.tracks
  have hdata : newline ∉ c.buffer.takeWhile (· ≠ newline) := by
    intro hmem
    simpa using List.mem_takeWhile_imp hmem
  have hlonger : newline ∉ part ++ c.buffer.takeWhile (· ≠ newline) := by
    simp only [List.mem_append, not_or]
    exact ⟨hpart, hdata⟩
  unfold LocalConnection.consume
  dsimp only
  split
  · next hends =>
    refine handleLine_tracks handler purpose h.live (hcollected.collect _) (.inl rfl) ?_
    have hbuffer : c.buffer = c.buffer.takeWhile (· ≠ newline)
        ++ newline :: (c.buffer.dropWhile (· ≠ newline)).tail :=
      takeWhile_append_newline hends
    have hstream : part ++ c.ahead = (part ++ c.buffer.takeWhile (· ≠ newline)) ++ newline ::
        ((c.buffer.dropWhile (· ≠ newline)).tail ++ (c.chunks.map Subtype.val).flatten) := by
      conv_lhs => rw [ahead, hbuffer]
      simp only [List.append_assoc, List.cons_append]
    rw [hframes, hstream, streamFrames_append_newline hlonger]
    rfl
  · next hopen =>
    have hall : c.buffer.takeWhile (· ≠ newline) = c.buffer := by
      refine List.takeWhile_eq_self_iff.mpr fun byte hbyte => ?_
      rw [decide_eq_true_iff]
      rintro rfl
      exact hopen hbyte
    refine Open.toTracks ⟨h.live, _, hlonger, hcollected.collect _, ?_⟩
    rw [hframes, hall]
    simp [ahead]

/-- A round of the wait for a frame loses nothing. -/
theorem Open.readLocalFrame (handler : Request → RequestOutcome) (purpose : LocalSocketPurpose)
    (h : Open stream c) (writable : Bool) :
    Tracks stream (c.readLocalFrame handler purpose writable) := by
  unfold LocalConnection.readLocalFrame
  split
  · next hbuffer =>
    obtain ⟨part, hpart, hcollected, hframes⟩ := h.tracks
    split
    · next chunk chunks hchunks =>
      refine Open.consume handler purpose (c := { c with chunks, buffer := chunk })
        ⟨h.live, part, hpart, hcollected, ?_⟩ writable
      rw [hframes]
      simp [ahead, hbuffer, hchunks]
    · next hchunks =>
      have hrest : c.ahead = [] := by simp [ahead, hbuffer, hchunks]
      rw [hrest, List.append_nil] at hframes
      split
      · next hdone =>
        -- The stream ended after a newline, or before the first byte.
        have hnil := hcollected.eq_nil_iff.mp hdone.1
        rw [hnil, streamFrames_nil, List.append_nil] at hframes
        exact hframes.symm
      · next hdone =>
        have hne : part ≠ [] := by
          rintro rfl
          exact hdone ⟨hcollected.line, hcollected.overlong⟩
        refine handleLine_tracks handler purpose h.live hcollected (.inr hne) ?_
        rw [hframes, hrest, streamFrames_nil, List.append_nil, streamFrames_of_not_mem hpart]
  · exact h.consume handler purpose writable

/-- A run in which nothing is served while a line is half read. -/
def Undisturbed (handler : Request → RequestOutcome) (purpose : LocalSocketPurpose) :
    LocalConnection → List Turn → Prop
  | _, [] => True
  | c, turn :: turns =>
    turn.Spares c ∧ Undisturbed handler purpose (c.take handler purpose turn) turns

/-- A turn that spares the line loses nothing. -/
theorem Tracks.take (handler : Request → RequestOutcome) (purpose : LocalSocketPurpose)
    (h : Tracks stream c) {turn : Turn} (hspares : turn.Spares c) :
    Tracks stream (c.take handler purpose turn) := by
  unfold LocalConnection.take
  split
  · exact h
  · next hlive =>
    have hending : c.ending = none := Option.not_isSome_iff_eq_none.mp hlive
    have hopen : Open stream c := by
      unfold Tracks at h
      rwa [hending] at h
    -- A wait that has collected nothing may be dropped and begun again.
    have hagain (hline : c.line = []) : Open stream { c with line := [], overlong := false } := by
      obtain ⟨part, -, hcollected, hframes⟩ := hopen.tracks
      rw [hcollected.eq_nil_iff.mp hline] at hframes
      exact ⟨hending, [], by simp, collected_nil, hframes⟩
    cases turn with
    | read writable => exact hopen.readLocalFrame handler purpose writable
    | notified params writable => exact (hagain hspares).settle _ _
    | lagged => exact (hagain hspares).toTracks
    | stop =>
      obtain ⟨part, -, -, hframes⟩ := hopen.tracks
      exact ⟨_, hframes.symm⟩

theorem Tracks.run (handler : Request → RequestOutcome) (purpose : LocalSocketPurpose)
    {stream : List UInt8} {c : LocalConnection} (h : Tracks stream c) {turns : List Turn}
    (hturns : Undisturbed handler purpose c turns) :
    Tracks stream (c.run handler purpose turns) := by
  induction turns generalizing c with
  | nil => exact h
  | cons turn turns ih => exact ih (h.take handler purpose hturns.1) hturns.2

end

end LocalConnection

/-- **A client is heard line by line.** Whatever the client sends, however it is split into reads
and whatever else is served, if nothing is served while a line is half read, the frames that were
handled are the first of those that the whole stream has, and all of them when the connection ends
with the stream. -/
theorem frames_of_undisturbed [Wire] [StringText] [LineText] (handler : Request → RequestOutcome)
    (purpose : LocalSocketPurpose) (version instanceId : String) (chunks : List Chunk)
    (turns : List Turn)
    (hturns : (LocalConnection.start purpose version instanceId chunks).Undisturbed handler purpose
      turns) :
    let c := (LocalConnection.start purpose version instanceId chunks).run handler purpose turns
    let frames := streamFrames (chunks.map Subtype.val).flatten
    c.frames <+: frames ∧ (c.ending = some .endOfStream → c.frames = frames) := by
  have hstart : LocalConnection.Open (chunks.map Subtype.val).flatten
      (LocalConnection.start purpose version instanceId chunks) :=
    ⟨rfl, [], by simp, LocalConnection.collected_nil, rfl⟩
  have htracks := hstart.toTracks.run handler purpose hturns
  unfold LocalConnection.Tracks at htracks
  dsimp only
  split at htracks
  · next hlive =>
    obtain ⟨part, -, -, hframes⟩ := htracks.tracks
    exact ⟨⟨_, hframes.symm⟩, fun hend => by rw [hlive] at hend; cases hend⟩
  · next hend => exact ⟨htracks ▸ List.prefix_rfl, fun _ => htracks⟩
  · next hstopped => exact ⟨htracks, fun hend => by rw [hstopped] at hend; cases hend⟩

namespace Sample

/-- Lines that are no UTF-8, and are shown byte by byte. -/
scoped instance lineText : LineText where
  utf8 _ := none
  utf8Lossy bytes := String.ofList (bytes.map fun byte => Char.ofNat byte.toNat)
  parse _ := none
  errorObject _ := .error ""

/-- A line that comes in two reads. -/
def twoReads : List Chunk := [⟨[120], by decide⟩, ⟨[121, newline], by decide⟩]

/-- The connection of a client that sends them. -/
def client : LocalConnection := .start .application "1" "instance" twoReads

/-- No request arrives here. -/
def noHandler (_ : Request) : RequestOutcome := .ok .null

/-- A notification between the two reads, before the client is initialized: the first half of the
line is gone, and the second half is taken for a line. -/
theorem half_line_lost :
    let c := client.run noHandler .application
      [.read true, .notified [] true, .read true, .read true]
    c.ending = some .endOfStream ∧
      c.frames = streamFrame [121] true ∧
      streamFrames (twoReads.map Subtype.val).flatten = streamFrame [120, 121] true ∧
      c.frames ≠ streamFrames (twoReads.map Subtype.val).flatten := by
  decide +kernel

/-- The notification comes after the line. -/
theorem whole_line_read :
    let c := client.run noHandler .application
      [.read true, .read true, .notified [] true, .read true]
    c.ending = some .endOfStream ∧
      c.frames = streamFrames (twoReads.map Subtype.val).flatten := by
  have hturns : client.Undisturbed noHandler .application
      [.read true, .read true, .notified [] true, .read true] :=
    ⟨trivial, trivial, by decide +kernel, trivial, trivial⟩
  have hend : (client.run noHandler .application
      [.read true, .read true, .notified [] true, .read true]).ending = some .endOfStream := by
    decide +kernel
  exact ⟨hend, (frames_of_undisturbed noHandler .application "1" "instance" twoReads _ hturns).2
    hend⟩

end Sample

end Zeta.Ipc
