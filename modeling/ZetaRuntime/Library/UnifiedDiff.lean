import Mathlib.Data.List.Infix
import ZetaRuntime.Library.Lines

/-!
# Unified diffs of one hunk

A hunk says where it starts in the old and in the new text, how many lines it has of each, and gives
these lines: those that stay, those that go and those that come. A line that ends the text without a
line break is followed by a marker. A range of no lines names the line before it, any other range
its first line, and a count of one is not written.

`readHunk` reads the standard format, and nothing else. A hunk that was read applies to a text only
if its ranges have the counts of its rows, both start at the same line, and the old lines are found
there exactly; what it then gives is a text only if at most its last line does not end. Applying a
hunk backwards is applying the hunk with its two sides exchanged.
-/

namespace UnifiedDiff

variable {lines : List (List Char)} {line text : List Char}

/-- What a row of a hunk says of its line. -/
inductive Mark where
  | context
  | removed
  | added
  deriving DecidableEq, Repr

/-- The character that a row starts with. -/
def Mark.char : Mark → Char
  | .context => ' '
  | .removed => '-'
  | .added => '+'

def Mark.ofChar : Char → Option Mark
  | ' ' => some .context
  | '-' => some .removed
  | '+' => some .added
  | _ => none

/-- The same row in the hunk that undoes this one. -/
def Mark.reverse : Mark → Mark
  | .context => .context
  | .removed => .added
  | .added => .removed

@[simp] theorem Mark.ofChar_char (mark : Mark) : Mark.ofChar mark.char = some mark := by
  cases mark <;> rfl

theorem Mark.char_ne_newline (mark : Mark) : '\n' ≠ mark.char := by
  cases mark <;> decide

/-- A row of a hunk: a line, with its line break if it has one. -/
structure Row where
  mark : Mark
  line : List Char
  deriving DecidableEq, Repr

/-- A hunk: two ranges of lines, and the rows that fill them. -/
structure Hunk where
  oldStart : ℕ
  oldCount : ℕ
  newStart : ℕ
  newCount : ℕ
  rows : List Row
  deriving DecidableEq, Repr

namespace Hunk

/-- The lines of the old text. -/
def oldLines (h : Hunk) : List (List Char) := (h.rows.filter (·.mark ≠ .added)).map Row.line

/-- The lines of the new text. -/
def newLines (h : Hunk) : List (List Char) := (h.rows.filter (·.mark ≠ .removed)).map Row.line

/-- The hunk that undoes this one. -/
def reverse (h : Hunk) : Hunk where
  oldStart := h.newStart
  oldCount := h.newCount
  newStart := h.oldStart
  newCount := h.oldCount
  rows := h.rows.map fun row => ⟨row.mark.reverse, row.line⟩

@[simp] theorem oldLines_reverse (h : Hunk) : h.reverse.oldLines = h.newLines := by
  have hmark : ∀ mark : Mark, decide (mark.reverse ≠ .added) = decide (mark ≠ .removed) := by
    intro mark
    cases mark <;> rfl
  simp only [reverse, oldLines, newLines, List.filter_map, List.map_map]
  congr 1
  exact List.filter_congr fun row _ => hmark row.mark

@[simp] theorem newLines_reverse (h : Hunk) : h.reverse.newLines = h.oldLines := by
  have hmark : ∀ mark : Mark, decide (mark.reverse ≠ .removed) = decide (mark ≠ .added) := by
    intro mark
    cases mark <;> rfl
  simp only [reverse, oldLines, newLines, List.filter_map, List.map_map]
  congr 1
  exact List.filter_congr fun row _ => hmark row.mark

end Hunk

/-! ### The format -/

/-- The marker behind a line that does not end. -/
def noNewline : List Char := "\\ No newline at end of file\n".toList

/-- The text behind a fixed word. -/
def literal (word text : List Char) : Option (List Char) :=
  if word <+: text then some (text.drop word.length) else none

/-- A number and the text behind it. -/
def readNumber (text : List Char) : Option (ℕ × List Char) :=
  if text.takeWhile Char.isDigit = [] then none
  else some (Nat.ofDigitChars 10 (text.takeWhile Char.isDigit) 0, text.dropWhile Char.isDigit)

/-- The count of a range, which is one if it is not written. -/
def readCount : List Char → Option (ℕ × List Char)
  | ',' :: text => readNumber text
  | text => some (1, text)

/-- A range: where it starts, and its count. -/
def readRange (text : List Char) : Option ((ℕ × ℕ) × List Char) := do
  let (start, text) ← readNumber text
  let (count, text) ← readCount text
  return ((start, count), text)

/-- A row from its line. -/
def readRow : List Char → Option Row
  | [] => none
  | c :: line => (Mark.ofChar c).map fun mark => ⟨mark, line⟩

/-- The rows from their lines. A marker takes the line break off the row before it. -/
def readRows : List (List Char) → Option (List Row)
  | [] => some []
  | [line] => (readRow line).map fun row => [row]
  | line :: next :: lines =>
    if next = noNewline then do
      let row ← readRow line
      let rows ← readRows lines
      return ⟨row.mark, row.line.dropLast⟩ :: rows
    else do
      let row ← readRow line
      let rows ← readRows (next :: lines)
      return row :: rows

/-- A hunk in its standard format. -/
def readHunk (text : List Char) : Option Hunk := do
  let text ← literal ['@', '@', ' ', '-'] text
  let (old, text) ← readRange text
  let text ← literal [' ', '+'] text
  let (new, text) ← readRange text
  let text ← literal [' ', '@', '@', '\n'] text
  let rows ← readRows (Lines.inclusive '\n' text)
  return ⟨old.1, old.2, new.1, new.2, rows⟩

def writeRange (start count : ℕ) : List Char :=
  if count = 1 then Nat.toDigits 10 start
  else Nat.toDigits 10 start ++ ',' :: Nat.toDigits 10 count

def Row.write (row : Row) : List Char :=
  row.mark.char ::
    if row.line.getLast? = some '\n' then row.line else row.line ++ '\n' :: noNewline

def Hunk.write (h : Hunk) : List Char :=
  ['@', '@', ' ', '-'] ++ writeRange h.oldStart h.oldCount ++ [' ', '+'] ++ writeRange h.newStart
    h.newCount ++
    [' ', '@', '@', '\n'] ++ h.rows.flatMap Row.write

/-! ### What was written is read -/

theorem literal_append (word text : List Char) : literal word (word ++ text) = some text := by
  rw [literal, if_pos (List.prefix_append _ _), List.drop_left]

theorem readNumber_toDigits (n : ℕ) (h : ∀ c ∈ text.head?, c.isDigit = false) :
    readNumber (Nat.toDigits 10 n ++ text) = some (n, text) := by
  have hdigits : ∀ c ∈ Nat.toDigits 10 n, c.isDigit = true := fun c hc =>
    Nat.isDigit_of_mem_toDigits (by decide) (by decide) hc
  have htake : text.takeWhile Char.isDigit = [] ∧ text.dropWhile Char.isDigit = text := by
    cases text with
    | nil => exact ⟨rfl, rfl⟩
    | cons c text =>
      have hc : c.isDigit = false := h c rfl
      simp [hc]
  rw [readNumber, List.takeWhile_append_of_pos hdigits, List.dropWhile_append_of_pos hdigits,
    htake.1, htake.2, List.append_nil, if_neg Nat.toDigits_ne_nil,
    Nat.ofDigitChars_toDigits (by decide) (by decide)]

theorem readRange_of {rest rest' : List Char} {start count : ℕ}
    (hstart : readNumber text = some (start, rest))
    (hcount : readCount rest = some (count, rest')) :
    readRange text = some ((start, count), rest') := by
  simp only [readRange, hstart, hcount, Option.bind_eq_bind, Option.bind_some, Option.pure_def]

theorem readRange_writeRange (start count : ℕ)
    (h : ∀ c ∈ text.head?, c.isDigit = false ∧ c ≠ ',') :
    readRange (writeRange start count ++ text) = some ((start, count), text) := by
  have hdigit : ∀ c ∈ text.head?, c.isDigit = false := fun c hc => (h c hc).1
  rw [writeRange]
  split
  · next hone =>
    have hcount : readCount text = some (1, text) := by
      unfold readCount
      split
      · next rest => exact absurd rfl (h ',' rfl).2
      · rfl
    rw [hone]
    exact readRange_of (readNumber_toDigits start hdigit) hcount
  · have hcount : readCount (',' :: Nat.toDigits 10 count ++ text) = some (count, text) :=
      readNumber_toDigits count hdigit
    have hcomma : ∀ c ∈ (',' :: Nat.toDigits 10 count ++ text).head?, c.isDigit = false := by
      intro c hc
      obtain rfl : ',' = c := Option.some.inj hc
      decide
    rw [List.append_assoc]
    exact readRange_of (readNumber_toDigits start hcomma) hcount

theorem readRow_cons (mark : Mark) (line : List Char) :
    readRow (mark.char :: line) = some ⟨mark, line⟩ := by
  rw [readRow, Mark.ofChar_char, Option.map_some]

/-- A row is not the marker. -/
theorem cons_ne_noNewline (mark : Mark) (line : List Char) : mark.char :: line ≠ noNewline := by
  intro h
  have hhead : mark.char = '\\' := (List.cons.inj h).1
  cases mark <;> exact absurd hhead (by decide)

/-- The lines that a row is written as. -/
theorem inclusive_write {row : Row} (h : Lines.Ended '\n' row.line ∨ Lines.Unended '\n' row.line)
    (text : List Char) :
    ∃ line, readRow line = some ⟨row.mark, line.tail⟩ ∧ line ≠ noNewline ∧
      (Lines.inclusive '\n' (row.write ++ text) = line :: Lines.inclusive '\n' text ∧
        line.tail = row.line ∨
        Lines.inclusive '\n' (row.write ++ text) = line :: noNewline :: Lines.inclusive '\n' text ∧
          line.tail.dropLast = row.line) := by
  have hfresh {body : List Char} (hbody : '\n' ∉ body) : '\n' ∉ row.mark.char :: body := by
    rw [List.mem_cons, not_or]
    exact ⟨row.mark.char_ne_newline, hbody⟩
  rcases h with ⟨body, hbody, hline⟩ | ⟨-, hbody⟩
  · refine ⟨row.mark.char :: (body ++ ['\n']), readRow_cons row.mark _,
      cons_ne_noNewline row.mark _, ?_⟩
    have hwrite : row.write ++ text = (row.mark.char :: body) ++ '\n' :: text := by
      rw [Row.write, hline, List.getLast?_concat, if_pos rfl]
      simp
    exact .inl ⟨by rw [hwrite, Lines.inclusive_append (hfresh hbody)]; rfl, hline.symm⟩
  · refine ⟨row.mark.char :: (row.line ++ ['\n']), readRow_cons row.mark _,
      cons_ne_noNewline row.mark _, ?_⟩
    have hlast : row.line.getLast? ≠ some '\n' := fun hlast => hbody (List.mem_of_getLast? hlast)
    have hwrite : row.write ++ text = (row.mark.char :: row.line) ++ '\n' ::
        (noNewline ++ text) := by
      rw [Row.write, if_neg hlast, List.cons_append, List.append_assoc, List.cons_append,
        List.cons_append]
    have hmarker : Lines.inclusive '\n' (noNewline ++ text) = noNewline :: Lines.inclusive '\n'
        text := by
      have hsplit : noNewline ++ text = noNewline.dropLast ++ '\n' :: text := by
        rw [← List.singleton_append, ← List.append_assoc]
        rfl
      rw [hsplit, Lines.inclusive_append (by decide)]
      rfl
    refine .inr ⟨by rw [hwrite, Lines.inclusive_append (hfresh hbody), hmarker]; rfl, ?_⟩
    rw [List.tail_cons, List.dropLast_concat]

theorem readRows_cons {row : Row} {rows : List Row} (hrow : readRow line = some row)
    (hlines : ∀ next ∈ lines.head?, next ≠ noNewline) (hrows : readRows lines = some rows) :
    readRows (line :: lines) = some (row :: rows) := by
  cases lines with
  | nil =>
    obtain rfl : [] = rows := Option.some.inj hrows
    rw [readRows, hrow, Option.map_some]
  | cons next lines =>
    rw [readRows, if_neg (hlines next rfl), hrow, hrows]
    rfl

theorem readRows_marker {row : Row} {rows : List Row} (hrow : readRow line = some row)
    (hrows : readRows lines = some rows) :
    readRows (line :: noNewline :: lines) = some (⟨row.mark, row.line.dropLast⟩ :: rows) := by
  rw [readRows, if_pos rfl, hrow, hrows]
  rfl

/-- The rows of a hunk are read as they were written, and they do not start with a marker. -/
theorem readRows_write {rows : List Row}
    (h : ∀ row ∈ rows, Lines.Ended '\n' row.line ∨ Lines.Unended '\n' row.line) :
    readRows (Lines.inclusive '\n' (rows.flatMap Row.write)) = some rows ∧
      ∀ next ∈ (Lines.inclusive '\n' (rows.flatMap Row.write)).head?, next ≠ noNewline := by
  induction rows with
  | nil => exact ⟨rfl, nofun⟩
  | cons row rows ih =>
    rw [List.forall_mem_cons] at h
    obtain ⟨hrows, hhead⟩ := ih h.2
    rw [List.flatMap_cons]
    obtain ⟨line, hrow, hne, ⟨hlines, hline⟩ | ⟨hlines, hline⟩⟩ :=
      inclusive_write h.1 (rows.flatMap Row.write)
    · rw [hlines]
      refine ⟨?_, fun next hnext => Option.some.inj hnext ▸ hne⟩
      rw [hline] at hrow
      exact readRows_cons hrow hhead hrows
    · rw [hlines]
      refine ⟨?_, fun next hnext => Option.some.inj hnext ▸ hne⟩
      rw [readRows_marker hrow hrows, hline]

/-- **A hunk is read as it was written.** -/
theorem readHunk_write {h : Hunk}
    (hlines : ∀ row ∈ h.rows, Lines.Ended '\n' row.line ∨ Lines.Unended '\n' row.line) :
    readHunk h.write = some h := by
  have hspace (text : List Char) : ∀ c ∈ (' ' :: text).head?, c.isDigit = false ∧ c ≠ ',' := by
    intro c hc
    obtain rfl : ' ' = c := Option.some.inj hc
    decide
  have hold (rest : List Char) : readRange
    (writeRange h.oldStart h.oldCount ++ ([' ', '+'] ++ rest))
      = some ((h.oldStart, h.oldCount), [' ', '+'] ++ rest) :=
    readRange_writeRange h.oldStart h.oldCount (hspace ('+' :: rest))
  have hnew (rest : List Char) : readRange
    (writeRange h.newStart h.newCount ++ ([' ', '@', '@', '\n'] ++ rest))
      = some ((h.newStart, h.newCount), [' ', '@', '@', '\n'] ++ rest) :=
    readRange_writeRange h.newStart h.newCount (hspace (['@', '@', '\n'] ++ rest))
  simp only [readHunk, Hunk.write, List.append_assoc, literal_append, hold, hnew,
    (readRows_write hlines).1, Option.bind_eq_bind, Option.bind_some, Option.pure_def]

/-! ### What a hunk does -/

/-- The number of lines before a range. -/
def position (start count : ℕ) : ℕ := if count = 0 then start else start - 1

namespace Hunk

variable {h : Hunk}

/-- The ranges of a hunk start behind some number of lines, and have the counts of its rows. -/
structure StartsAt (h : Hunk) (n : ℕ) : Prop where
  oldCount_eq : h.oldCount = h.oldLines.length
  newCount_eq : h.newCount = h.newLines.length
  oldStart_pos : h.oldCount ≠ 0 → 1 ≤ h.oldStart
  newStart_pos : h.newCount ≠ 0 → 1 ≤ h.newStart
  old_position : position h.oldStart h.oldCount = n
  new_position : position h.newStart h.newCount = n

instance (h : Hunk) (n : ℕ) : Decidable (h.StartsAt n) :=
  decidable_of_iff (h.oldCount = h.oldLines.length ∧ h.newCount = h.newLines.length ∧
      (h.oldCount ≠ 0 → 1 ≤ h.oldStart) ∧ (h.newCount ≠ 0 → 1 ≤ h.newStart) ∧
      position h.oldStart h.oldCount = n ∧ position h.newStart h.newCount = n)
    ⟨fun ⟨a, b, c, d, e, f⟩ => ⟨a, b, c, d, e, f⟩, fun ⟨a, b, c, d, e, f⟩ => ⟨a, b, c, d, e, f⟩⟩

theorem StartsAt.reverse {n : ℕ} (hn : h.StartsAt n) : h.reverse.StartsAt n where
  oldCount_eq := by rw [oldLines_reverse]; exact hn.newCount_eq
  newCount_eq := by rw [newLines_reverse]; exact hn.oldCount_eq
  oldStart_pos := hn.newStart_pos
  newStart_pos := hn.oldStart_pos
  old_position := hn.new_position
  new_position := hn.old_position

/-- The lines with the hunk applied, if its old lines are where it says. -/
def apply (h : Hunk) (lines : List (List Char)) : Option (List (List Char)) :=
  let n := position h.oldStart h.oldCount
  if h.StartsAt n ∧ n ≤ lines.length ∧ h.oldLines <+: lines.drop n then
    some (lines.take n ++ h.newLines ++ lines.drop (n + h.oldCount))
  else none

/-- A text has line breaks between its lines. -/
def Separated (lines : List (List Char)) :
    Prop := ∀ line ∈ lines.dropLast, line.getLast? = some '\n'

instance (lines : List (List Char)) : Decidable (Separated lines) :=
  inferInstanceAs (Decidable (∀ line ∈ lines.dropLast, line.getLast? = some '\n'))

/-- The text with the hunk applied. -/
def applyText (h : Hunk) (text : List Char) : Option (List Char) := do
  let lines ← h.apply (Lines.inclusive '\n' text)
  if Separated lines then some lines.flatten else none

/-- **The old lines of a hunk are replaced by its new lines.** -/
theorem apply_eq {left right : List (List Char)} (hn : h.StartsAt left.length) :
    h.apply (left ++ h.oldLines ++ right) = some (left ++ h.newLines ++ right) := by
  have hdrop : (left ++ h.oldLines ++ right).drop (left.length + h.oldCount) = right := by
    rw [hn.oldCount_eq, ← List.length_append, List.drop_left]
  have hfits : h.StartsAt left.length ∧ left.length ≤ (left ++ h.oldLines ++ right).length ∧
      h.oldLines <+: (left ++ h.oldLines ++ right).drop left.length := by
    rw [List.append_assoc, List.drop_left, List.length_append]
    exact ⟨hn, Nat.le_add_right _ _, List.prefix_append _ _⟩
  rw [apply]
  simp only [hn.old_position, if_pos hfits, hdrop]
  rw [List.append_assoc left, List.take_left]

end Hunk

end UnifiedDiff
