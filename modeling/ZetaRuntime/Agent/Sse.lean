import ZetaRuntime.Agent.Capability
import ZetaRuntime.Library.Utf8

/-!
# Server-sent events

A model server sends its answer as lines of text. A line `data: …` adds to the current event, an
empty line ends it, and other lines are passed over. `parseSseLines` collects the events of lines
that are there already. The byte decoder collects them from a stream that arrives in chunks, which
may cut a line, a character or the two bytes that end a line.

The decoder keeps the bytes of the line that has not ended and the data of the event that has not
ended. A chunk is fed byte by byte, so feeding chunks one after another is feeding their
concatenation (`pushAll_eq`), and what remains is to follow one line (`push_line`) and then all
lines of a text.

Both buffers have the same limit. The decoder refuses a line when the line has one byte too many,
and that byte is then in the buffer, so a decoder that has reported an error may hold one byte more
than the limit.
-/

namespace Zeta

variable {data : List String} {limit : ℕ}

/-! ### Lines that were decoded -/

/-- What a data line adds to its event. -/
def dataValue (line : String) : Option String :=
  match line.toList with
  | ':' :: _ => none
  | 'd' :: 'a' :: 't' :: 'a' :: ':' :: ' ' :: value => some (String.ofList value)
  | 'd' :: 'a' :: 't' :: 'a' :: ':' :: value => some (String.ofList value)
  | _ => none

/-- The text of an event. -/
def joinData (data : List String) : String :=
  String.ofList (List.intercalate ['\n'] (data.map String.toList))

/-- The event that data lines make, if there are any. -/
def pushFrame (data : List String) : List String := if data = [] then [] else [joinData data]

/-- The loop over lines, with the events found so far and the data of the next one. -/
def parseSseLoop (frames data : List String) : List String → List String
  | [] => frames ++ pushFrame data
  | line :: lines =>
    if line = "" then parseSseLoop (frames ++ pushFrame data) [] lines
    else
      match dataValue line with
      | none => parseSseLoop frames data lines
      | some value => parseSseLoop frames (data ++ [value]) lines

/-- The events of some lines. -/
def parseSseLines (lines : List String) : List String := parseSseLoop [] [] lines

/-! ### The byte decoder -/

structure SseByteDecoder where
  /-- The bytes of the line that has not ended. -/
  line : List UInt8
  /-- The data of the event that has not ended. -/
  data : List String
  eventBytes : ℕ
  maxEventBytes : ℕ

/-- The number of bytes of a text. -/
def byteLength (text : String) : ℕ := (Utf8.encode text.toList).length

namespace SseByteDecoder

variable {d : SseByteDecoder}

def new (maxEventBytes : ℕ) : SseByteDecoder := ⟨[], [], 0, maxEventBytes⟩

def tooLarge (d : SseByteDecoder) : AgentError :=
  ⟨.model, "model stream failed: SSE event exceeded " ++ toString d.maxEventBytes ++ " bytes"⟩

def notUtf8 : AgentError := ⟨.model, "model stream failed: SSE data was not UTF-8"⟩

/-- A line without the carriage return at its end. -/
def stripReturn (line : List UInt8) : List UInt8 :=
  if line.getLast? = some (Utf8.ascii '\r') then line.dropLast else line

/-- Add the data of a line to the event, unless it becomes too large. -/
def addData (d : SseByteDecoder) (value : String) :
    Except AgentError (List String) × SseByteDecoder :=
  let eventBytes := d.eventBytes + ((if d.data = [] then 0 else 1) + byteLength value)
  if d.maxEventBytes < eventBytes then (.error d.tooLarge, { d with eventBytes := eventBytes })
  else (.ok [], { d with eventBytes := eventBytes, data := d.data ++ [value] })

/-- What a decoded line does. -/
def finishText (d : SseByteDecoder) (line : String) :
    Except AgentError (List String) × SseByteDecoder :=
  if line = "" then
    (.ok (pushFrame d.data),
    { d with data := [], eventBytes := if d.data = [] then d.eventBytes else 0 })
  else
    match dataValue line with
    | none => (.ok [], d)
    | some value => d.addData value

/-- End the current line. The events that it ends are returned. -/
def finishLine (d : SseByteDecoder) : Except AgentError (List String) × SseByteDecoder :=
  match Utf8.decode (stripReturn d.line) with
  | none => (.error notUtf8, { d with line := [] })
  | some line => { d with line := [] }.finishText line

/-- Take one byte. -/
def pushByte (d : SseByteDecoder) (byte : UInt8) :
    Except AgentError (List String) × SseByteDecoder :=
  if byte = Utf8.ascii '\n' then d.finishLine
  else
    let d := { d with line := d.line ++ [byte] }
    if d.maxEventBytes < d.line.length then (.error d.tooLarge, d) else (.ok [], d)

/-- Take the bytes of a chunk, with the events found in it so far. An error leaves the decoder as it
is then, and the events of the chunk are not returned. -/
def push (frames : List String) (d : SseByteDecoder) :
    List UInt8 → Except AgentError (List String) × SseByteDecoder
  | [] => (.ok frames, d)
  | byte :: chunk =>
    match d.pushByte byte with
    | (.ok more, d) => push (frames ++ more) d chunk
    | (.error error, d) => (.error error, d)

/-- End the stream. -/
def finish (d : SseByteDecoder) : Except AgentError (List String) :=
  if d.line = [] then .ok (pushFrame d.data)
  else
    match d.finishLine with
    | (.ok frames, d) => .ok (frames ++ pushFrame d.data)
    | (.error error, _) => .error error

/-- Take chunks one after another, with the events of those before. -/
def pushAll (frames : List String) (d : SseByteDecoder) :
    List (List UInt8) → Except AgentError (List String) × SseByteDecoder
  | [] => (.ok frames, d)
  | chunk :: chunks =>
    match push [] d chunk with
    | (.ok more, d) => pushAll (frames ++ more) d chunks
    | (.error error, d) => (.error error, d)

/-- The events of a whole stream. -/
def decodeChunks (maxEventBytes : ℕ) (chunks : List (List UInt8)) :
    Except AgentError (List String) :=
  match pushAll [] (new maxEventBytes) chunks with
  | (.ok frames, d) => d.finish.map (frames ++ ·)
  | (.error error, _) => .error error

/-! ### The chunks do not matter -/

theorem push_append (frames : List String) (d : SseByteDecoder) (a b : List UInt8) :
    push frames d (a ++ b)
      = match push frames d a with
        | (.ok found, d) => push found d b
        | (.error error, d) => (.error error, d) := by
  induction a generalizing frames d with
  | nil => rfl
  | cons byte a ih =>
    simp only [List.cons_append, push]
    split
    · exact ih _ _
    · rfl

/-- The events of a chunk come after those that were there. -/
theorem push_eq (frames : List String) (d : SseByteDecoder) (chunk : List UInt8) :
    push frames d chunk = ((push [] d chunk).1.map (frames ++ ·), (push [] d chunk).2) := by
  induction chunk generalizing frames d with
  | nil => simp [push, Except.map]
  | cons byte chunk ih =>
    simp only [push]
    split
    · next more d' _ =>
      rw [ih, ih ([] ++ more)]
      cases (push [] d' chunk).1 <;> simp [Except.map]
    · rfl

/-- Chunks taken one after another are their concatenation. -/
theorem pushAll_eq (frames : List String) (d : SseByteDecoder) (chunks : List (List UInt8)) :
    pushAll frames d chunks = push frames d chunks.flatten := by
  induction chunks generalizing frames d with
  | nil => rfl
  | cons chunk chunks ih =>
    rw [List.flatten_cons, push_append, push_eq, pushAll]
    rcases push [] d chunk with ⟨error | more, d'⟩
    · rfl
    · exact ih _ _

/-! ### The buffers -/

theorem joinData_concat (h : data ≠ []) (value : String) :
    (joinData (data ++ [value])).toList = (joinData data).toList ++ '\n' :: value.toList := by
  have hinter : ∀ texts : List (List Char), texts ≠ [] → ∀ text,
      List.intercalate ['\n'] (texts ++ [text]) = List.intercalate ['\n'] texts ++ '\n' ::
        text := by
    intro texts hne text
    induction texts with
    | nil => exact absurd rfl hne
    | cons first texts ih =>
      cases texts with
      | nil => simp [List.intercalate]
      | cons second texts =>
        have hrest := ih (List.cons_ne_nil _ _)
        simp only [List.intercalate, List.cons_append, List.intersperse_cons_cons,
          List.flatten_cons] at hrest ⊢
        rw [hrest]
        simp
  rw [joinData, joinData, String.toList_ofList, String.toList_ofList, List.map_append,
    List.map_singleton]
  exact hinter _ (by simpa using h) _

/-- How the size of an event grows with a data line. -/
theorem byteLength_joinData_concat (data : List String) (value : String) :
    byteLength (joinData (data ++ [value]))
      = byteLength (joinData data) + ((if data = [] then 0 else 1) + byteLength value) := by
  by_cases h : data = []
  · subst h
    simp [joinData, byteLength, List.intercalate]
  · rw [byteLength, joinData_concat h, Utf8.encode_append, Utf8.encode_cons, if_neg h]
    simp [byteLength, String.length_utf8EncodeChar]
    rfl

/-- What the buffers of a decoder with this limit hold as long as it reports no error. -/
structure Bounded (limit : ℕ) (d : SseByteDecoder) : Prop where
  max_eq : d.maxEventBytes = limit
  line : d.line.length ≤ limit
  counted : d.eventBytes = byteLength (joinData d.data)
  data : byteLength (joinData d.data) ≤ limit

/-- What they hold after an error: the line may have one byte too many. -/
structure Exceeded (limit : ℕ) (d : SseByteDecoder) : Prop where
  line : d.line.length ≤ limit + 1
  data : byteLength (joinData d.data) ≤ limit

/-- The state after a step of a decoder, by whether the step reported an error. -/
def Holds (limit : ℕ) (result : Except AgentError (List String) × SseByteDecoder) : Prop :=
  match result with
  | (.ok _, d) => d.Bounded limit
  | (.error _, d) => d.Exceeded limit

theorem bounded_new (limit : ℕ) : (new limit).Bounded limit :=
  ⟨rfl, Nat.zero_le _, rfl, Nat.zero_le _⟩

theorem Bounded.finishText (h : d.Bounded limit) (line : String) :
    Holds limit (d.finishText line) := by
  unfold SseByteDecoder.finishText
  split
  · refine ⟨h.max_eq, h.line, ?_, Nat.zero_le _⟩
    dsimp only
    split
    · next hdata => rw [h.counted, hdata]
    · rfl
  · split
    · exact h
    · next value _ =>
      have hsize := byteLength_joinData_concat d.data value
      unfold addData
      dsimp only
      rw [h.counted, ← hsize, h.max_eq]
      split
      · exact ⟨h.line.trans (Nat.le_succ _), h.data⟩
      · next hfits => exact ⟨rfl, h.line, rfl, Nat.le_of_not_lt hfits⟩

theorem Bounded.finishLine (h : d.Bounded limit) : Holds limit d.finishLine := by
  have hline : { d with line := [] }.Bounded limit := ⟨h.max_eq, Nat.zero_le _, h.counted, h.data⟩
  unfold SseByteDecoder.finishLine
  split
  · exact ⟨Nat.zero_le _, h.data⟩
  · exact hline.finishText _

theorem Bounded.pushByte (h : d.Bounded limit) (byte : UInt8) : Holds limit (d.pushByte byte) := by
  unfold SseByteDecoder.pushByte
  split
  · exact h.finishLine
  · have hline := h.line
    dsimp only
    rw [h.max_eq]
    split
    · exact ⟨by simpa using hline, h.data⟩
    · next hfits => exact ⟨rfl, Nat.le_of_not_lt hfits, h.counted, h.data⟩

/-- **The buffers keep their bounds.** -/
theorem Bounded.push (h : d.Bounded limit) (frames : List String) (chunk : List UInt8) :
    Holds limit (push frames d chunk) := by
  induction chunk generalizing frames d with
  | nil => exact h
  | cons byte chunk ih =>
    have hbyte := h.pushByte byte
    rw [SseByteDecoder.push]
    split
    · next more d' heq =>
      rw [heq] at hbyte
      exact ih hbyte _
    · next error d' heq =>
      rw [heq] at hbyte
      exact hbyte

end SseByteDecoder

/-! ### Events of lines -/

theorem parseSseLoop_eq (frames data lines : List String) :
    parseSseLoop frames data lines = frames ++ parseSseLoop [] data lines := by
  induction lines generalizing frames data with
  | nil => simp [parseSseLoop]
  | cons line lines ih =>
    simp only [parseSseLoop]
    split
    · rw [ih, ih ([] ++ pushFrame data)]
      simp
    · split
      · exact ih _ _
      · exact ih _ _

/-- Data that is there ends up in an event, which is at least as large. -/
theorem exists_frame (h : data ≠ []) (lines : List String) :
    ∃ frame ∈ parseSseLoop [] data lines, byteLength (joinData data) ≤ byteLength frame := by
  induction lines generalizing data with
  | nil => exact ⟨joinData data, by simp [parseSseLoop, pushFrame, h], Nat.le_refl _⟩
  | cons line lines ih =>
    rw [parseSseLoop]
    split
    · rw [parseSseLoop_eq]
      exact ⟨joinData data, by simp [pushFrame, h], Nat.le_refl _⟩
    · split
      · exact ih h
      · next value _ =>
        obtain ⟨frame, hmem, hle⟩ := ih
          (List.append_ne_nil_of_right_ne_nil data (List.cons_ne_nil value []))
        rw [SseByteDecoder.byteLength_joinData_concat] at hle
        exact ⟨frame, hmem, by omega⟩

/-! ### The events of a text -/

/-- The lines of a text, which end with a line feed or with a carriage return and a line feed. -/
def textLines (text : List Char) : List String :=
  (Lines.split '\n' text).map fun line =>
    String.ofList (if line.getLast? = some '\r' then line.dropLast else line)

namespace SseByteDecoder

variable {d : SseByteDecoder}

theorem stripReturn_encode (line : List Char) :
    stripReturn (Utf8.encode line)
      = Utf8.encode (if line.getLast? = some '\r' then line.dropLast else line) := by
  rcases List.eq_nil_or_concat line with rfl | ⟨first, c, rfl⟩
  · rfl
  · rw [List.concat_eq_append, List.getLast?_concat, List.dropLast_concat, Utf8.encode_append]
    by_cases hc : c = '\r'
    · subst hc
      have hlast : Utf8.encode ['\r'] = [Utf8.ascii '\r'] := rfl
      rw [if_pos rfl, hlast, stripReturn, List.getLast?_concat, if_pos rfl, List.dropLast_concat]
    · have hother : (Utf8.encode first ++ Utf8.encode [c]).getLast? ≠ some (Utf8.ascii '\r') := by
        rw [Utf8.encode_cons, Utf8.encode_nil, List.append_nil,
          List.getLast?_append_of_ne_nil _ String.utf8EncodeChar_ne_nil]
        intro hlast
        exact hc (Utf8.ascii_mem_encodeChar (by decide) (List.mem_of_getLast? hlast))
      rw [stripReturn, if_neg hother, if_neg (by simpa using hc), Utf8.encode_append]

/-- Bytes of a line that has not ended are kept, if there is room. -/
theorem push_of_notMem (hmax : d.maxEventBytes = limit) (frames : List String)
    {bytes : List UInt8} (hnot : Utf8.ascii '\n' ∉ bytes)
    (hroom : (d.line ++ bytes).length ≤ limit) :
    push frames d bytes = (.ok frames, { d with line := d.line ++ bytes }) := by
  induction bytes generalizing d with
  | nil => simp [push]
  | cons byte bytes ih =>
    rw [List.mem_cons, not_or] at hnot
    have hfits : ¬d.maxEventBytes < (d.line ++ [byte]).length := by
      simp only [List.length_append, List.length_cons, List.length_nil] at hroom ⊢
      omega
    have hbyte : d.pushByte byte = (.ok [], { d with line := d.line ++ [byte] }) := by
      rw [pushByte, if_neg (Ne.symm hnot.1)]
      exact if_neg hfits
    rw [push, hbyte]
    simp only [List.append_nil]
    rw [ih (d := { d with line := d.line ++ [byte] }) hmax hnot.2 (by simpa using hroom)]
    simp

/-- A decoded line does to the decoder what it does to the loop over lines. -/
theorem finishText_eq (h : d.Bounded limit) (line : String) (lines : List String)
    (hevents : ∀ frame ∈ parseSseLoop [] d.data (line :: lines), byteLength frame ≤ limit) :
    ∃ frames d', d.finishText line = (.ok frames, d') ∧ d'.Bounded limit ∧ d'.line = d.line ∧
      parseSseLoop [] d.data (line :: lines) = frames ++ parseSseLoop [] d'.data lines := by
  have hholds := h.finishText line
  suffices hok : ∃ frames d', d.finishText line = (.ok frames, d') ∧ d'.line = d.line ∧
      parseSseLoop [] d.data (line :: lines) = frames ++ parseSseLoop [] d'.data lines by
    obtain ⟨frames, d', heq, hline, hparse⟩ := hok
    rw [heq] at hholds
    exact ⟨frames, d', heq, hholds, hline, hparse⟩
  rw [parseSseLoop] at hevents ⊢
  unfold SseByteDecoder.finishText
  by_cases hempty : line = ""
  · simp only [hempty, if_true]
    exact ⟨_, _, rfl, rfl, parseSseLoop_eq _ _ _⟩
  · simp only [hempty, if_false] at hevents ⊢
    cases hvalue : dataValue line with
    | none => exact ⟨_, _, rfl, rfl, rfl⟩
    | some value =>
      rw [hvalue] at hevents
      obtain ⟨frame, hmem, hle⟩ :=
        exists_frame (List.append_ne_nil_of_right_ne_nil d.data (List.cons_ne_nil value [])) lines
      have hfits : ¬d.maxEventBytes <
          d.eventBytes + ((if d.data = [] then 0 else 1) + byteLength value) := by
        rw [h.max_eq, h.counted, ← byteLength_joinData_concat]
        exact Nat.not_lt_of_le (hle.trans (hevents frame hmem))
      refine ⟨[], { d with
        eventBytes := d.eventBytes + ((if d.data = [] then 0 else 1) + byteLength value)
        data := d.data ++ [value] }, ?_, rfl, rfl⟩
      exact if_neg hfits

/-- A line that has ended, or that the end of the stream ends, is the line of the text. -/
theorem finishLine_encode (d : SseByteDecoder) {line : List Char} (h : d.line = Utf8.encode line) :
    d.finishLine = { d with line := [] }.finishText
      (String.ofList (if line.getLast? = some '\r' then line.dropLast else line)) := by
  rw [finishLine, h, stripReturn_encode, Utf8.decode_encode]

/-- The bytes of a text, from a decoder that is between lines. The induction is on the lines of the
text. -/
theorem push_text {text : List Char} (hend : text.getLast? ≠ some '\r')
    (hlines : ∀ line ∈ Lines.split '\n' text, (Utf8.encode line).length ≤ limit)
    (h : d.Bounded limit) (hline : d.line = [])
    (hevents : ∀ frame ∈ parseSseLoop [] d.data (textLines text), byteLength frame ≤ limit) :
    ∃ frames d' rest, push [] d (Utf8.encode text) = (.ok frames, d') ∧ d'.finish = .ok rest ∧
      frames ++ rest = parseSseLoop [] d.data (textLines text) := by
  induction text using Lines.rec_on_lines '\n' generalizing d with
  | nil =>
    refine ⟨[], d, pushFrame d.data, rfl, ?_, rfl⟩
    rw [finish, if_pos hline]
  | last line hne hnot =>
    rw [Lines.split_of_notMem hne hnot] at hlines
    have hroom := hlines line (.head _)
    have htext : textLines line = [String.ofList line] := by
      rw [textLines, Lines.split_of_notMem hne hnot, List.map_singleton, if_neg hend]
    have hpush := push_of_notMem h.max_eq [] (mt (Utf8.ascii_mem_encode (by decide)).mp hnot)
      (by rwa [hline, List.nil_append])
    rw [hline, List.nil_append] at hpush
    have hbetween : { d with line := [] }.Bounded
      limit := ⟨h.max_eq, Nat.zero_le _, h.counted, h.data⟩
    rw [htext] at hevents ⊢
    obtain ⟨frames, d', hfinish, -, -, hparse⟩ := finishText_eq hbetween (String.ofList line) []
      hevents
    refine ⟨[], _, frames ++ pushFrame d'.data, hpush, ?_, ?_⟩
    · have hbytes : Utf8.encode line ≠ [] := by
        cases line with
        | nil => exact absurd rfl hne
        | cons c line =>
          rw [Utf8.encode_cons]
          exact List.append_ne_nil_of_left_ne_nil String.utf8EncodeChar_ne_nil _
      rw [finish, if_neg hbytes, finishLine_encode _ rfl, if_neg hend, hfinish]
    · rw [List.nil_append]
      exact hparse.symm
  | cons line rest hnot ih =>
    rw [Lines.split_append hnot] at hlines
    have hroom := hlines line (.head _)
    have htext : textLines (line ++ '\n' :: rest)
        = String.ofList (if line.getLast? = some '\r' then line.dropLast else line) :: textLines
          rest := by
      rw [textLines, Lines.split_append hnot, List.map_cons]
      rfl
    have hpush := push_of_notMem h.max_eq [] (mt (Utf8.ascii_mem_encode (by decide)).mp hnot)
      (by rwa [hline, List.nil_append])
    rw [hline, List.nil_append] at hpush
    have hbetween : { d with line := [] }.Bounded
      limit := ⟨h.max_eq, Nat.zero_le _, h.counted, h.data⟩
    rw [htext] at hevents ⊢
    obtain ⟨frames, d', hfinish, hd', hempty, hparse⟩ := finishText_eq hbetween _ (textLines rest)
      hevents
    have hrest : rest.getLast? ≠ some '\r' := by
      intro hlast
      apply hend
      cases rest with
      | nil => cases hlast
      | cons c rest =>
        rw [List.getLast?_append_of_ne_nil _ (List.cons_ne_nil _ _), List.getLast?_cons_cons, hlast]
    obtain ⟨more, d'', last, hmore, hlast, hsame⟩ :=
      ih hrest (fun line' hmem => hlines line' (.tail _ hmem)) hd' hempty
        (fun frame hmem => hevents frame (by
          rw [hparse]
          exact List.mem_append_right _ hmem))
    refine ⟨frames ++ more, d'', last, ?_, hlast, ?_⟩
    · have hencode : Utf8.encode (line ++ '\n' :: rest)
          = Utf8.encode line ++ Utf8.ascii '\n' :: Utf8.encode rest := by
        rw [Utf8.encode_append, Utf8.encode_cons]
        rfl
      have hbyte : pushByte { d with line := Utf8.encode line } (Utf8.ascii '\n') =
          (.ok frames, d') := by
        rw [pushByte, if_pos rfl, finishLine_encode _ rfl]
        exact hfinish
      rw [hencode, push_append, hpush]
      dsimp only
      rw [push, hbyte]
      dsimp only
      rw [List.nil_append, push_eq, hmore]
      rfl
    · rw [List.append_assoc, hsame]
      exact hparse.symm

end SseByteDecoder

open SseByteDecoder

/-- The events of a stream are those of its text. -/
theorem decodeChunks_eq_parseSseLines {text : String} {chunks : List (List UInt8)}
    (hchunks : chunks.flatten = Utf8.encode text.toList) (hend : text.toList.getLast? ≠ some '\r')
    (hlines : ∀ line ∈ Lines.split '\n' text.toList, (Utf8.encode line).length ≤ limit)
    (hevents : ∀ frame ∈ parseSseLines (textLines text.toList), byteLength frame ≤ limit) :
    decodeChunks limit chunks = .ok (parseSseLines (textLines text.toList)) := by
  obtain ⟨frames, d, rest, hpush, hfinish, hparse⟩ := push_text hend hlines (bounded_new limit) rfl
    hevents
  rw [decodeChunks, pushAll_eq, hchunks, hpush]
  dsimp only
  rw [hfinish, Except.map, hparse]
  rfl

/-- **The decoder is independent of the chunks, and bounded.** For a stream whose lines end with a
line feed, after a carriage return or not, and whose lines and events do not exceed the limit, the
events are those of the lines of the text, however the stream is cut. And whatever arrives, the
decoder never holds more data of an event than the limit, nor more bytes of a line as long as it
reports no error; when it does, the line may have one byte more. -/
theorem sse_decoder_exact (limit : ℕ) :
    (∀ (text : String) (chunks : List (List UInt8)), chunks.flatten = Utf8.encode text.toList →
      text.toList.getLast? ≠ some '\r' →
      (∀ line ∈ Lines.split '\n' text.toList, (Utf8.encode line).length ≤ limit) →
      (∀ frame ∈ parseSseLines (textLines text.toList), byteLength frame ≤ limit) →
      decodeChunks limit chunks = .ok (parseSseLines (textLines text.toList))) ∧
    ∀ chunks, byteLength (joinData (pushAll [] (new limit) chunks).2.data) ≤ limit ∧
      (pushAll [] (new limit) chunks).2.line.length ≤ limit + 1 ∧
      ((pushAll [] (new limit) chunks).1.toBool = true →
        (pushAll [] (new limit) chunks).2.line.length ≤ limit) := by
  refine ⟨fun text chunks => decodeChunks_eq_parseSseLines, fun chunks => ?_⟩
  have hholds := (bounded_new limit).push [] chunks.flatten
  rw [pushAll_eq]
  generalize push [] (new limit) chunks.flatten = result at hholds ⊢
  obtain ⟨error | frames, d⟩ := result
  · have hexceeded : d.Exceeded limit := hholds
    exact ⟨hexceeded.data, hexceeded.line, fun h => absurd h Bool.false_ne_true⟩
  · have hbounded : d.Bounded limit := hholds
    exact ⟨hbounded.data, hbounded.line.trans (Nat.le_succ _), fun _ => hbounded.line⟩

namespace Sample

/-- Two bytes of a line, for a decoder with a limit of one byte: both are in the buffer. -/
theorem second_byte_kept :
    (pushAll [] (SseByteDecoder.new 1) [[97, 97]]).1 = .error (SseByteDecoder.new 1).tooLarge ∧
      (pushAll [] (SseByteDecoder.new 1) [[97, 97]]).2.line.length = 2 := by
  decide +kernel

/-- One event in three chunks, which cut a character of two bytes and the end of a line. -/
theorem cut_event_decoded :
    decodeChunks 64 [[100, 97, 116, 97, 58, 32, 195], [169, 13], [10, 13, 10]] = .ok ["é"] := by
  have hparse : parseSseLines (textLines "data: é\r\n\r\n".toList) = ["é"] := by decide +kernel
  have hdecode := (sse_decoder_exact 64).1 "data: é\r\n\r\n"
    [[100, 97, 116, 97, 58, 32, 195], [169, 13], [10, 13, 10]] (by decide +kernel)
    (by decide +kernel)
    (by decide +kernel) (by rw [hparse]; decide +kernel)
  rwa [hparse] at hdecode

end Sample

end Zeta
