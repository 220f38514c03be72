import ZetaRuntime.Ipc.Frame
import ZetaRuntime.Library.Lines

/-!
# Reading frames from a stream in chunks

The frame reader takes bytes from its source in chunks of a size it does not choose and returns one
frame per call. A line that is already too long is not collected: the reader drops what it has,
reads on until a newline is found, and starts again with what follows the newline in the same chunk.

`ChunkReader` is the reader of the source, with the chunks that it will be given. One call takes one
line off the bytes that were not read yet, whatever the chunks are (`readFrame_spec`), so the frames
of a whole stream are the frames of its lines. A ghost field keeps the largest size that the buffer
has had. The local socket, which collects its lines itself, gives each of them to such a reader.

## Main definitions

* `ChunkReader` — the reader over a source
* `decodeLocalFrame` — the frame of a line in memory

## Main results

* `ChunkReader.readFrame_spec` — one call takes one line
* `chunks_do_not_matter` — the frames of a stream, and the size of the buffer
-/

namespace Zeta.Ipc

variable {after before bytes line : List UInt8}

/-- What a frame says, without what it shows of an invalid line: its message, or the rule that is
broken. -/
def Frame.outcome : Frame → Message ⊕ String
  | .message received => .inl received
  | .violation found => .inr found.rule

/-- What one read delivers. An empty read is the end of the input. -/
abbrev ReadChunk := { bytes : List UInt8 // bytes ≠ [] ∧ bytes.length ≤ readChunk }

/-- A reader over a source. -/
structure ChunkReader where
  /-- What the source will deliver. -/
  inner : List ReadChunk
  buffer : List UInt8
  eof : Bool
  maxFrameBytes : ℕ
  /-- The largest size the buffer has had. -/
  high : ℕ

namespace ChunkReader

variable {r : ChunkReader}

def new (inner : List ReadChunk) (maxFrameBytes : ℕ) :
    ChunkReader := ⟨inner, [], false, maxFrameBytes, 0⟩

/-- Append bytes to the buffer. -/
def extend (r : ChunkReader) (bytes : List UInt8) : ChunkReader :=
  { r with buffer := r.buffer ++ bytes, high := max r.high (r.buffer ++ bytes).length }

/-- Read on until a newline, and keep what follows it. -/
def discardUntilNewline (r : ChunkReader) : List ReadChunk → ChunkReader
  | [] => { r with inner := [], eof := true }
  | chunk :: inner =>
    if newline ∈ chunk.1 then
      { r with inner := inner }.extend ((chunk.1.dropWhile (· ≠ newline)).tail)
    else r.discardUntilNewline inner

section

variable [LineText]

/-- What is left at the end of the input is a line, unless it is nothing. -/
def finish (r : ChunkReader) : Option Frame × ChunkReader :=
  if r.buffer = [] then (none, r)
  else (some (lineFrame r.maxFrameBytes r.buffer), { r with buffer := [] })

/-- The rounds of a call, with what the source will deliver. -/
def readFrom (r : ChunkReader) (inner : List ReadChunk) : Option Frame × ChunkReader :=
  if newline ∈ r.buffer then
    (some (lineFrame r.maxFrameBytes (r.buffer.takeWhile (· ≠ newline))),
      { r with inner, buffer := (r.buffer.dropWhile (· ≠ newline)).tail })
  else if r.eof then { r with inner }.finish
  else if r.maxFrameBytes < r.buffer.length then
    (some (overlongFrame (r.buffer.take previewCharacters) r.maxFrameBytes),
      { r with buffer := [] }.discardUntilNewline inner)
  else
    match inner with
    -- the next round finds no newline either, and the end
    | [] => { r with inner := [], eof := true }.finish
    | chunk :: inner => ({ r with inner }.extend chunk.1).readFrom inner

/-- The next frame, or none at the end of the input. -/
def readFrame (r : ChunkReader) : Option Frame × ChunkReader := r.readFrom r.inner

end

/-- The bytes that were not returned in a frame yet. -/
def unread (r : ChunkReader) : List UInt8 := r.buffer ++ (r.inner.map Subtype.val).flatten

/-- What holds of a reader between calls. -/
structure Sound (r : ChunkReader) : Prop where
  ended : r.eof = true → r.inner = []
  bounded : r.high ≤ r.maxFrameBytes + readChunk

theorem sound_new (inner : List ReadChunk) (limit : ℕ) : (new inner limit).Sound :=
  ⟨fun h => absurd h Bool.false_ne_true, Nat.zero_le _⟩

/-- A line taken off some bytes: it ends with a newline, or it is all that is left. -/
inductive Takes : List UInt8 → List UInt8 → List UInt8 → Prop
  | ended {line rest : List UInt8} (h : newline ∉ line) : Takes (line ++ newline :: rest) line rest
  | last {line : List UInt8} (hne : line ≠ []) (h : newline ∉ line) : Takes line line []

theorem Takes.length_lt (h : Takes before line after) : after.length < before.length := by
  cases h with
  | ended h =>
    simp
    omega
  | last hne h => exact List.length_pos_of_ne_nil hne

/-- The first line of some bytes is the first of their lines. -/
theorem Takes.split (h : Takes before line after) :
    Lines.split newline before = line :: Lines.split newline after := by
  cases h with
  | ended h => exact Lines.split_append h after
  | last hne h => exact Lines.split_of_notMem hne h

/-- Bytes with a newline are those before it, the newline and those after it. -/
theorem eq_append_of_newline (h : newline ∈ bytes) :
    bytes = bytes.takeWhile (· ≠ newline) ++ newline :: (bytes.dropWhile (· ≠ newline)).tail ∧
      newline ∉ bytes.takeWhile (· ≠ newline) := by
  induction bytes with
  | nil => cases h
  | cons byte bytes ih =>
    by_cases hbyte : byte = newline
    · simp [hbyte]
    · obtain ⟨hsplit, hnot⟩ := ih ((List.mem_cons.mp h).resolve_left (Ne.symm hbyte))
      simp only [List.takeWhile_cons, List.dropWhile_cons, hbyte, ne_eq, not_false_eq_true,
        decide_true, if_true, List.cons_append]
      refine ⟨congrArg _ hsplit, ?_⟩
      rw [List.mem_cons, not_or]
      exact ⟨Ne.symm hbyte, hnot⟩

theorem extend_unread (r : ChunkReader) (bytes : List UInt8) :
    (r.extend bytes).unread = r.buffer ++ bytes ++ (r.inner.map Subtype.val).flatten := rfl

/-- Discarding reads to the end of a line, or to the end of the input. -/
theorem discardUntilNewline_spec (r : ChunkReader) (hbuffer : r.buffer = []) (hopen : r.eof = false)
    (hhigh : r.high ≤ r.maxFrameBytes + readChunk) (chunks : List ReadChunk) :
    (∃ part, newline ∉ part ∧
        ((chunks.map Subtype.val).flatten =
          part ++ newline :: (r.discardUntilNewline chunks).unread ∨
          ((chunks.map Subtype.val).flatten = part ∧ (r.discardUntilNewline chunks).unread = []))) ∧
      (r.discardUntilNewline chunks).Sound ∧
      (r.discardUntilNewline chunks).maxFrameBytes = r.maxFrameBytes := by
  induction chunks with
  | nil =>
    refine ⟨⟨[], List.not_mem_nil, .inr ⟨rfl, ?_⟩⟩, ⟨fun _ => rfl, hhigh⟩, rfl⟩
    simp [discardUntilNewline, unread, hbuffer]
  | cons chunk chunks ih =>
    by_cases hmem : newline ∈ chunk.1
    · rw [discardUntilNewline, if_pos hmem]
      obtain ⟨hsplit, hnot⟩ := eq_append_of_newline hmem
      have htail : ((chunk.1.dropWhile (· ≠ newline)).tail).length ≤ readChunk := by
        have hlen := congrArg List.length hsplit
        rw [List.length_append, List.length_cons] at hlen
        have hchunk := chunk.2.2
        omega
      refine ⟨⟨chunk.1.takeWhile (· ≠ newline), hnot, .inl ?_⟩, ⟨?_, ?_⟩, rfl⟩
      · rw [extend_unread, List.map_cons, List.flatten_cons]
        dsimp only
        rw [hbuffer, List.nil_append, ← List.cons_append, ← List.append_assoc, ← hsplit]
      · intro heof
        exact absurd (hopen.symm.trans heof) Bool.false_ne_true
      · simp only [extend, hbuffer, List.nil_append]
        omega
    · rw [discardUntilNewline, if_neg hmem]
      obtain ⟨⟨part, hpart, hcases⟩, hsound, hlimit⟩ := ih
      refine ⟨⟨chunk.1 ++ part, by simp [hmem, hpart], ?_⟩, hsound, hlimit⟩
      rw [List.map_cons, List.flatten_cons]
      rcases hcases with hcase | ⟨hcase, hend⟩
      · exact .inl (by rw [hcase, List.append_assoc])
      · exact .inr ⟨by rw [hcase], hend⟩

section

variable [LineText]

theorem outcome_lineFrame (limit : ℕ) (line : List UInt8) :
    (lineFrame limit line).outcome
      = if limit < line.length then .inr "frame_too_long" else (decodeLine line).outcome := by
  unfold lineFrame
  split <;> rfl

/-- What a call returns for the bytes that were unread before it and after it: nothing if there were
none, and otherwise what their first line says. -/
def Returns (limit : ℕ) (before after : List UInt8) : Option Frame → Prop
  | none => before = []
  | some frame => ∃ line, Takes before line after ∧ frame.outcome = (lineFrame limit line).outcome

/-- At the end of the input, what is in the buffer is all that is left. -/
theorem finish_spec (h : r.Sound) (hend : r.eof = true) (hline : newline ∉ r.buffer) :
    Returns r.maxFrameBytes r.unread r.finish.2.unread r.finish.1 ∧ r.finish.2.Sound ∧
      r.finish.2.maxFrameBytes = r.maxFrameBytes := by
  have hunread : ∀ buffer, unread { r with buffer } = buffer := by simp [unread, h.ended hend]
  unfold finish
  split
  case isTrue hempty => exact ⟨(hunread r.buffer).trans hempty, h, rfl⟩
  case isFalse hbuffer =>
    refine ⟨⟨r.buffer, ?_, rfl⟩, ⟨h.ended, h.bounded⟩, rfl⟩
    rw [hunread []]
    exact (hunread r.buffer).symm ▸ .last hbuffer hline

theorem readFrom_spec {inner : List ReadChunk} (h : r.Sound) (hinner : r.inner = inner) :
    Returns r.maxFrameBytes r.unread (r.readFrom inner).2.unread (r.readFrom inner).1 ∧
      (r.readFrom inner).2.Sound ∧ (r.readFrom inner).2.maxFrameBytes = r.maxFrameBytes := by
  fun_induction readFrom r inner with
  | case1 inner r hline =>
    -- a line that ends is in the buffer
    subst hinner
    obtain ⟨hsplit, hnot⟩ := eq_append_of_newline hline
    refine ⟨⟨_, ?_, rfl⟩, ⟨h.ended, h.bounded⟩, rfl⟩
    have hunread : r.unread = r.buffer.takeWhile (· ≠ newline) ++ newline ::
        unread { r with buffer := (r.buffer.dropWhile (· ≠ newline)).tail } := by
      simp only [unread]
      rw [← List.cons_append, ← List.append_assoc, ← hsplit]
    rw [hunread]
    exact .ended hnot
  | case2 inner r hline hend =>
    subst hinner
    exact finish_spec h hend hline
  | case3 inner r hline hopen hlong =>
    -- a line that is too long already
    subst hinner
    rw [Bool.not_eq_true] at hopen
    obtain ⟨⟨part, hpart, hcases⟩, hsound, hlimit⟩ :=
      discardUntilNewline_spec { r with buffer := [] } rfl hopen h.bounded r.inner
    refine ⟨⟨r.buffer ++ part, ?_, ?_⟩, hsound, hlimit⟩
    · have hnot : newline ∉ r.buffer ++ part := by simp [hline, hpart]
      rcases hcases with hcase | ⟨hcase, hend⟩
      · rw [unread, hcase, ← List.append_assoc]
        exact .ended hnot
      · rw [unread, hcase, hend]
        refine .last ?_ hnot
        intro hnil
        rw [(List.append_eq_nil_iff.mp hnil).1] at hlong
        exact absurd hlong (Nat.not_lt_zero _)
    · rw [outcome_lineFrame, if_pos (by rw [List.length_append]; omega)]
      rfl
  | case4 r hline hopen hlong =>
    have hunread : r.unread = unread { r with inner := [], eof := true } := by simp [unread, hinner]
    rw [hunread]
    exact finish_spec (r := { r with inner := [], eof := true }) ⟨fun _ => rfl, h.bounded⟩ rfl hline
  | case5 r hline hopen hlong chunk inner ih =>
    have hunread : r.unread = ({ r with inner }.extend chunk.1).unread := by
      rw [extend_unread, unread, hinner, List.map_cons, List.flatten_cons, List.append_assoc]
    rw [hunread]
    refine ih ⟨fun hend => absurd hend hopen, ?_⟩ rfl
    have hchunk := chunk.2.2
    have hbounded := h.bounded
    simp only [extend, List.length_append]
    omega

/-- **One call takes one line.** -/
theorem readFrame_spec (h : r.Sound) :
    Returns r.maxFrameBytes r.unread r.readFrame.2.unread r.readFrame.1 ∧ r.readFrame.2.Sound ∧
      r.readFrame.2.maxFrameBytes = r.maxFrameBytes :=
  readFrom_spec h rfl

/-- The frames up to the end of the input, and the reader then. -/
def readAll (r : ChunkReader) (h : r.Sound) : List Frame × ChunkReader :=
  match hread : r.readFrame with
  | (none, r') => ([], r')
  | (some frame, r') =>
    have hspec := readFrame_spec h
    let rest := readAll r' (by rw [hread] at hspec; exact hspec.2.1)
    (frame :: rest.1, rest.2)
termination_by r.unread.length
decreasing_by
  have hspec := readFrame_spec h
  rw [hread] at hspec
  obtain ⟨⟨line, htakes, -⟩, -⟩ := hspec
  exact htakes.length_lt

/-- The frames of a reader are those of the lines that were unread. -/
theorem readAll_spec (h : r.Sound) :
    (r.readAll h).1.map Frame.outcome
        = (Lines.split newline r.unread).map
          (fun line => (lineFrame r.maxFrameBytes line).outcome) ∧
      (r.readAll h).2.Sound ∧ (r.readAll h).2.maxFrameBytes = r.maxFrameBytes := by
  fun_induction readAll r h with
  | case1 r h r' hread =>
    have hspec := readFrame_spec h
    rw [hread] at hspec
    obtain ⟨hunread, hsound, hlimit⟩ := hspec
    have hnil : r.unread = [] := hunread
    exact ⟨by rw [hnil]; rfl, hsound, hlimit⟩
  | case2 r h frame r' hread hspec rest ih =>
    rw [hread] at hspec
    obtain ⟨⟨line, htakes, hframe⟩, hsound, hlimit⟩ := hspec
    obtain ⟨hframes, hlast, hsame⟩ := ih
    refine ⟨?_, hlast, hsame.trans hlimit⟩
    rw [htakes.split, List.map_cons, List.map_cons, hframe, hframes, hlimit]

end

end ChunkReader

/-- **The chunks do not matter.** The frames of a stream, until the end of the input, say what its
lines say, one frame for each line and a line that is too long as exactly one violation; and the
buffer never exceeds the limit by more than one chunk. -/
theorem chunks_do_not_matter [LineText] (chunks : List ReadChunk) (limit : ℕ) :
    let result := (ChunkReader.new chunks limit).readAll (ChunkReader.sound_new chunks limit)
    result.1.map Frame.outcome
        = (Lines.split newline (chunks.map Subtype.val).flatten).map (fun line =>
            if limit < line.length then .inr "frame_too_long" else (decodeLine line).outcome) ∧
      result.2.high ≤ limit + readChunk := by
  obtain ⟨hframes, hsound, hlimit⟩ := ChunkReader.readAll_spec (ChunkReader.sound_new chunks limit)
  refine ⟨?_, hsound.bounded.trans_eq (by rw [hlimit]; rfl)⟩
  simp only [ChunkReader.outcome_lineFrame] at hframes
  exact hframes

/-! ### Bytes in memory

The local socket gives the reader a line in memory, which delivers as much as fits into a chunk. -/

/-- What bytes in memory deliver, in at most this many reads. -/
def memoryChunks : ℕ → List UInt8 → List ReadChunk
  | 0, _ => []
  | reads + 1, bytes =>
    if h : bytes = [] then []
    else ⟨bytes.take readChunk, by simp [h, readChunk], List.length_take_le _ _⟩
      :: memoryChunks reads (bytes.drop readChunk)

theorem flatten_memoryChunks {reads : ℕ} (h : bytes.length ≤ reads) :
    ((memoryChunks reads bytes).map Subtype.val).flatten = bytes := by
  induction reads generalizing bytes with
  | zero => exact (List.eq_nil_of_length_eq_zero (Nat.le_zero.mp h)).symm
  | succ reads ih =>
    unfold memoryChunks
    split
    case isTrue hempty => exact hempty.symm
    case isFalse hne =>
      have hpos := List.length_pos_of_ne_nil hne
      rw [List.map_cons, List.flatten_cons, ih (by rw [List.length_drop, readChunk]; omega)]
      exact List.take_append_drop readChunk bytes

section

variable [LineText]

/-- A line that the local socket has collected. -/
def decodeLocalFrame (line : List UInt8) (terminated : Bool) : Option Frame :=
  let bytes := if terminated then line ++ [newline] else line
  (ChunkReader.new (memoryChunks bytes.length bytes) maxFrameBytes).readFrame.1

/-- A line that ends, or has a byte, is a frame. -/
theorem decodeLocalFrame_isSome {terminated : Bool} (h : terminated = true ∨ line ≠ []) :
    (decodeLocalFrame line terminated).isSome = true := by
  obtain ⟨bytes, hbytes⟩ : ∃ bytes, bytes = if terminated then line ++ [newline]
    else line := ⟨_, rfl⟩
  have hne : bytes ≠ [] := by
    rw [hbytes]
    split
    · simp
    · next hopen => exact h.resolve_left hopen
  obtain ⟨hreturns, -⟩ := ChunkReader.readFrame_spec
    (ChunkReader.sound_new (memoryChunks bytes.length bytes) maxFrameBytes)
  rw [decodeLocalFrame, ← hbytes]
  cases hread : (ChunkReader.new (memoryChunks bytes.length bytes) maxFrameBytes).readFrame.1 with
  | some frame => rfl
  | none =>
    rw [hread] at hreturns
    refine absurd ?_ hne
    rw [← flatten_memoryChunks (le_refl bytes.length)]
    exact hreturns

/-! ### Whole streams -/

/-- The frame of a line of a stream. Of a long line no more is kept than shows that it is too long.
-/
def streamFrame (line : List UInt8) (terminated : Bool) : List Frame :=
  (decodeLocalFrame (line.take (maxFrameBytes + 1)) terminated).toList

/-- The frames of a stream: one for each line that ends, and one for what follows the last newline,
if anything does. -/
def streamFrames (stream : List UInt8) : List Frame :=
  let lines := stream.splitOn newline
  lines.dropLast.flatMap (streamFrame · true)
    ++ streamFrame (lines.getLast (List.splitOn_ne_nil newline stream)) false

/-- A line that ends is the first frame of what it begins. -/
theorem streamFrames_append_newline (h : newline ∉ line) (rest : List UInt8) :
    streamFrames (line ++ newline :: rest) = streamFrame line true ++ streamFrames rest := by
  unfold streamFrames
  have hsplit : (line ++ newline :: rest).splitOn newline = line :: rest.splitOn newline :=
    List.splitOn_append_cons_self_of_not_mem h _
  have hne := List.splitOn_ne_nil newline rest
  simp only [hsplit, List.dropLast_cons_of_ne_nil hne, List.getLast_cons hne, List.flatMap_cons,
    List.append_assoc]

/-- Bytes without a newline are one frame, or none if there are none. -/
theorem streamFrames_of_not_mem (h : newline ∉ line) :
    streamFrames line = streamFrame line false := by
  unfold streamFrames
  have hsplit := List.splitOn_eq_singleton h
  simp [hsplit]

end

end Zeta.Ipc
