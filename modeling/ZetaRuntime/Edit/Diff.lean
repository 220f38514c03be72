import ZetaRuntime.Edit.Texts
import ZetaRuntime.Library.UnifiedDiff

/-!
# The diff of an edit

An edit is recorded as a unified diff of one hunk. The lines that the two texts share at their
beginnings and at their ends are left out, except for three on either side.

The two scans only have to find *some* common lines: whatever they find, both texts are these lines
around what is between them (`exists_shared`), and the hunk is that middle with the nearest shared
lines. So the proof reads the body of the source as such a hunk (`replacementPatch_eq`) and leaves
its meaning to the format. The header in front of the hunk repeats the location, whatever its
characters are.
-/

namespace Zeta.Edit

open UnifiedDiff

variable {after before : Text}

/-- How many lines two texts share at their beginnings. -/
def sharedLines : List Text → List Text → ℕ
  | line :: before, line' :: after => if line = line' then sharedLines before after + 1 else 0
  | _, _ => 0

/-- The lines from one index to another. -/
def slice (lines : List Text) (start stop : ℕ) : List Text := (lines.take stop).drop start

/-- A range of the header of a hunk. -/
def diffRange (start count : ℕ) : Text :=
  if count = 1 then Nat.toDigits 10 (start + 1)
  else if count = 0 then Nat.toDigits 10 start ++ [',', '0']
  else Nat.toDigits 10 (start + 1) ++ ',' :: Nat.toDigits 10 count

/-- A row of a hunk. -/
def diffLine (mark : Char) (line : Text) : Text :=
  mark :: line ++ if line.getLast? = some '\n' then []
    else '\n' :: "\\ No newline at end of file\n".toList

/-- The lines in front of the hunk. -/
def diffHeader (location : Text) : Text :=
  "--- ".toList ++ location ++ "\n+++ ".toList ++ location ++ ['\n']

/-- The recorded diff of an edit, empty if nothing changes. -/
def replacementPatch (location before after : Text) : Text :=
  if before = after then []
  else
    let before := ownedLines before
    let after := ownedLines after
    let start := sharedLines before after
    -- the second scan goes backwards and stops where the first one did
    let stop := sharedLines (before.drop start).reverse (after.drop start).reverse
    let contextStart := start - 3
    let beforeEnd := min (before.length - stop + 3) before.length
    let afterEnd := min (after.length - stop + 3) after.length
    diffHeader location ++ ['@', '@', ' ', '-'] ++ diffRange contextStart
      (beforeEnd - contextStart) ++
      [' ', '+'] ++ diffRange contextStart (afterEnd - contextStart) ++ [' ', '@', '@', '\n'] ++
      (slice before contextStart start).flatMap (diffLine ' ') ++
      (slice before start (before.length - stop)).flatMap (diffLine '-') ++
      (slice after start (after.length - stop)).flatMap (diffLine '+') ++
      (slice before (before.length - stop) beforeEnd).flatMap (diffLine ' ')

/-- The hunk of a recorded diff. -/
def readPatch (location patch : Text) :
    Option Hunk := (literal (diffHeader location) patch).bind readHunk

/-! ### The hunk of an edit -/

theorem sharedLines_spec (before after : List Text) :
    ∃ shared before' after', before = shared ++ before' ∧ after = shared ++ after' ∧
      shared.length = sharedLines before after := by
  induction before generalizing after with
  | nil => exact ⟨[], [], after, rfl, rfl, by rw [sharedLines]; rfl; exact nofun⟩
  | cons line before ih =>
    cases after with
    | nil => exact ⟨[], line :: before, [], rfl, rfl, by rw [sharedLines]; rfl; exact nofun⟩
    | cons line' after =>
      by_cases hline : line = line'
      · subst hline
        obtain ⟨shared, before', after', rfl, rfl, hlength⟩ := ih after
        exact ⟨line :: shared, before', after', rfl, rfl,
          by rw [sharedLines, if_pos rfl, ← hlength]; rfl⟩
      · exact ⟨[], line :: before, line' :: after, rfl, rfl, by rw [sharedLines, if_neg hline]; rfl⟩

/-- Two texts are what the two scans found, around what is between. -/
theorem exists_shared (before after : List Text) :
    ∃ left old new right, before = left ++ old ++ right ∧ after = left ++ new ++ right ∧
      left.length = sharedLines before after ∧
      right.length = sharedLines (before.drop (sharedLines before after)).reverse
        (after.drop (sharedLines before after)).reverse := by
  obtain ⟨left, before', after', hbefore, hafter, hleft⟩ := sharedLines_spec before after
  have hdrop : before.drop (sharedLines before after) = before' ∧
      after.drop (sharedLines before after) = after' := by
    rw [← hleft]
    exact ⟨by rw [hbefore, List.drop_left], by rw [hafter, List.drop_left]⟩
  obtain ⟨right, old, new, hold, hnew, hright⟩ := sharedLines_spec before'.reverse after'.reverse
  refine ⟨left, old.reverse, new.reverse, right.reverse, ?_, ?_, hleft, ?_⟩
  · rw [hbefore, List.append_assoc, ← List.reverse_append, ← hold, List.reverse_reverse]
  · rw [hafter, List.append_assoc, ← List.reverse_append, ← hnew, List.reverse_reverse]
  · rw [hdrop.1, hdrop.2, List.length_reverse, hright]

/-- Rows that all say the same of their lines. -/
def rowsOf (mark : Mark) (lines : List Text) : List Row := lines.map fun line => ⟨mark, line⟩

theorem flatMap_diffLine (mark : Mark) (lines : List Text) :
    lines.flatMap (diffLine mark.char) = (rowsOf mark lines).flatMap Row.write := by
  rw [rowsOf, List.flatMap_map]
  congr 1
  funext line
  show diffLine mark.char line = Row.write ⟨mark, line⟩
  rw [diffLine, Row.write]
  split
  · rw [List.append_nil]
  · rfl

theorem diffRange_eq (start count : ℕ) :
    diffRange start count = writeRange (if count = 0 then start else start + 1) count := by
  rw [diffRange, writeRange]
  split
  · next hone => rw [if_neg (by omega)]
  · split
    · next hzero =>
      rw [hzero]
      rfl
    · rfl

/-- The hunk that replaces the middle of a text, with what is near it. -/
def replacementHunk (left old new right : List Text) : Hunk where
  oldStart := if (left.drop (left.length - 3) ++ old ++ right.take 3).length = 0 then
    left.length - 3
    else left.length - 3 + 1
  oldCount := (left.drop (left.length - 3) ++ old ++ right.take 3).length
  newStart := if (left.drop (left.length - 3) ++ new ++ right.take 3).length = 0 then
    left.length - 3
    else left.length - 3 + 1
  newCount := (left.drop (left.length - 3) ++ new ++ right.take 3).length
  rows := rowsOf .context (left.drop (left.length - 3)) ++ rowsOf .removed old ++ rowsOf .added
    new ++
    rowsOf .context (right.take 3)

theorem filter_rowsOf (p : Mark → Bool) (mark : Mark) (lines : List Text) :
    ((rowsOf mark lines).filter fun row => p row.mark).map Row.line =
      if p mark then lines else [] := by
  rw [rowsOf, List.filter_map, List.map_map]
  show (lines.filter fun _ => p mark).map id = _
  rw [List.map_id]
  split
  · next h => exact List.filter_eq_self.mpr fun _ _ => h
  · next h => exact List.filter_eq_nil_iff.mpr fun _ _ => h

variable (left old new right : List Text)

theorem oldLines_replacementHunk : (replacementHunk left old new right).oldLines
    = left.drop (left.length - 3) ++ old ++ right.take 3 := by
  simp only [Hunk.oldLines, replacementHunk, List.filter_append, List.map_append,
    filter_rowsOf (· ≠ .added)]
  rw [if_pos (by decide), if_pos (by decide), if_neg (by decide), List.append_nil,
    if_pos (by decide)]

theorem newLines_replacementHunk : (replacementHunk left old new right).newLines
    = left.drop (left.length - 3) ++ new ++ right.take 3 := by
  simp only [Hunk.newLines, replacementHunk, List.filter_append, List.map_append,
    filter_rowsOf (· ≠ .removed)]
  rw [if_pos (by decide), if_neg (by decide), if_pos (by decide), List.append_nil,
    if_pos (by decide)]

theorem startsAt_replacementHunk :
    (replacementHunk left old new right).StartsAt (left.length - 3) where
  oldCount_eq := by rw [oldLines_replacementHunk]; rfl
  newCount_eq := by rw [newLines_replacementHunk]; rfl
  oldStart_pos := fun h => by
    simp only [replacementHunk] at h ⊢
    rw [if_neg h]
    omega
  newStart_pos := fun h => by
    simp only [replacementHunk] at h ⊢
    rw [if_neg h]
    omega
  old_position := by
    simp only [replacementHunk, position]
    split
    · rfl
    · exact Nat.add_sub_cancel _ _
  new_position := by
    simp only [replacementHunk, position]
    split
    · rfl
    · exact Nat.add_sub_cancel _ _

/-- The parts of a text that a hunk is made of, in the indices of the source. -/
theorem slice_parts {lines : List Text} (h : lines = left ++ old ++ right) :
    slice lines (left.length - 3) left.length = left.drop (left.length - 3) ∧
      slice lines left.length (lines.length - right.length) = old ∧
      slice lines (lines.length - right.length) (min (lines.length - right.length + 3) lines.length)
        = right.take 3 ∧
      min (lines.length - right.length + 3) lines.length - (left.length - 3)
        = (left.drop (left.length - 3) ++ old ++ right.take 3).length := by
  have hlength : lines.length - right.length = (left ++ old).length := by
    rw [h, List.length_append, Nat.add_sub_cancel]
  have hend : min (lines.length - right.length + 3) lines.length = (left ++ old).length + min 3
      right.length := by
    rw [hlength, h, @List.length_append _ (left ++ old) right, Nat.add_min_add_left]
  refine ⟨?_, ?_, ?_, ?_⟩
  · rw [slice, h, List.append_assoc, List.take_left]
  · rw [slice, hlength, h, List.take_left, List.drop_left]
  · rw [hend, hlength, slice, h, List.take_length_add_append, List.drop_left]
    exact List.take_eq_take_iff.mpr (by omega)
  · rw [hend]
    simp only [List.length_append, List.length_drop, List.length_take]
    omega

/-- **The recorded diff of two texts that differ is its header and a hunk.** -/
theorem replacementPatch_eq (h : before ≠ after) (location : Text)
    (hbefore : ownedLines before = left ++ old ++ right)
    (hafter : ownedLines after = left ++ new ++ right)
    (hleft : left.length = sharedLines (ownedLines before) (ownedLines after))
    (hright : right.length =
      sharedLines ((ownedLines before).drop left.length).reverse
      ((ownedLines after).drop left.length).reverse) :
    replacementPatch location before after
      = diffHeader location ++ (replacementHunk left old new right).write := by
  obtain ⟨hcontext, hold, htail, holdCount⟩ := slice_parts left old right hbefore
  obtain ⟨-, hnew, -, hnewCount⟩ := slice_parts left new right hafter
  have hrows (mark : Mark) := flatMap_diffLine mark
  have hkept : ∀ lines, lines.flatMap (diffLine ' ') = (rowsOf .context lines).flatMap
    Row.write := hrows .context
  have hgone : ∀ lines, lines.flatMap (diffLine '-') = (rowsOf .removed lines).flatMap
    Row.write := hrows .removed
  have hcome : ∀ lines, lines.flatMap (diffLine '+') = (rowsOf .added lines).flatMap
    Row.write := hrows .added
  simp only [replacementPatch, if_neg h, ← hleft, ← hright, hcontext, hold, htail, holdCount, hnew,
    hnewCount, hkept, hgone, hcome, diffRange_eq, Hunk.write, replacementHunk, List.flatMap_append,
    List.append_assoc]

theorem replacementPatch_eq_nil_iff (location before after : Text) :
    replacementPatch location before after = [] ↔ before = after := by
  constructor
  · intro h
    by_contra hne
    obtain ⟨left, old, new, right, hbefore, hafter, hleft, hright⟩ :=
      exists_shared (ownedLines before) (ownedLines after)
    rw [replacementPatch_eq left old new right hne location hbefore hafter hleft
      (hleft ▸ hright)] at h
    have hheader : diffHeader location = [] := (List.append_eq_nil_iff.mp h).1
    cases hheader
  · intro h
    rw [replacementPatch, if_pos h]

/-- The rows of the hunk are lines of one of the texts. -/
theorem mem_replacementHunk {row : Row} (h : row ∈ (replacementHunk left old new right).rows) :
    row.line ∈ left ++ old ++ right ∨ row.line ∈ left ++ new ++ right := by
  simp only [replacementHunk, rowsOf, List.mem_append, List.mem_map] at h
  rcases h with ((⟨line, hline, rfl⟩ | ⟨line, hline, rfl⟩) | ⟨line, hline, rfl⟩)
    | ⟨line, hline, rfl⟩
  · exact .inl (by simp [List.mem_of_mem_drop hline])
  · exact .inl (by simp [hline])
  · exact .inr (by simp [hline])
  · exact .inl (by simp [List.mem_of_mem_take hline])

/-- A hunk that replaces the middle of a text gives the other text. -/
theorem applyText_of_startsAt {hunk : Hunk} (hn : hunk.StartsAt (left.length - 3))
    (hold : hunk.oldLines = left.drop (left.length - 3) ++ old ++ right.take 3)
    (hnew : hunk.newLines = left.drop (left.length - 3) ++ new ++ right.take 3)
    (hbefore : ownedLines before = left ++ old ++ right)
    (hafter : ownedLines after = left ++ new ++ right) : hunk.applyText before = some after := by
  have haround (middle : List Text) : left ++ middle ++ right
      = left.take (left.length - 3) ++ (left.drop (left.length - 3) ++ middle ++ right.take 3) ++
        right.drop 3 := by
    simp only [← List.append_assoc, List.take_append_drop]
    rw [List.append_assoc _ (right.take 3), List.take_append_drop]
  have hlength : (left.take (left.length - 3)).length = left.length - 3 :=
    List.length_take_of_le (Nat.sub_le _ _)
  have happly : hunk.apply (ownedLines before) = some (ownedLines after) := by
    rw [hbefore, hafter, haround old, haround new, ← hold, ← hnew]
    exact Hunk.apply_eq (hlength.symm ▸ hn)
  have hseparated : Hunk.Separated (ownedLines after) := fun line hline =>
    (Lines.ended_of_mem_dropLast hline).getLast?
  rw [Hunk.applyText, show Lines.inclusive '\n' before = ownedLines before from rfl, happly,
    Option.bind_eq_bind, Option.bind_some, if_pos hseparated]
  exact congrArg some (Lines.flatten_inclusive after)

/-- **The recorded diff of two texts that differ is a unified diff whose ranges have the counts of
its rows; applied to the first text it gives the second, and applied backwards to the second it
gives the first.** -/
theorem replacementPatch_faithful (location : Text) {before after : Text} (h : before ≠ after) :
    ∃ hunk, readPatch location (replacementPatch location before after) = some hunk ∧
      hunk.oldCount = hunk.oldLines.length ∧ hunk.newCount = hunk.newLines.length ∧
      hunk.applyText before = some after ∧ hunk.reverse.applyText after = some before := by
  obtain ⟨left, old, new, right, hbefore, hafter, hleft, hright⟩ :=
    exists_shared (ownedLines before) (ownedLines after)
  have hn := startsAt_replacementHunk left old new right
  have hold := oldLines_replacementHunk left old new right
  have hnew := newLines_replacementHunk left old new right
  refine ⟨replacementHunk left old new right, ?_, hn.oldCount_eq, hn.newCount_eq, ?_, ?_⟩
  · rw [replacementPatch_eq left old new right h location hbefore hafter hleft (hleft ▸ hright),
      readPatch, literal_append, Option.bind_some]
    refine readHunk_write fun row hrow => ?_
    rcases mem_replacementHunk left old new right hrow with hline | hline
    · exact Lines.mem_inclusive (hbefore ▸ hline)
    · exact Lines.mem_inclusive (hafter ▸ hline)
  · exact applyText_of_startsAt left old new right hn hold hnew hbefore hafter
  · refine applyText_of_startsAt left new old right hn.reverse ?_ ?_ hafter hbefore
    · rw [Hunk.oldLines_reverse, hnew]
    · rw [Hunk.newLines_reverse, hold]

namespace Sample

/-- A text whose last line gets an end and a second line is recorded faithfully. -/
theorem lastLine_recorded : "a\nb".toList ≠ "a\nc\nd\n".toList ∧
    ∃ hunk, readPatch "/x".toList (replacementPatch "/x".toList "a\nb".toList "a\nc\nd\n".toList) =
      some hunk ∧
      hunk.oldCount = hunk.oldLines.length ∧ hunk.newCount = hunk.newLines.length ∧
      hunk.applyText "a\nb".toList = some "a\nc\nd\n".toList ∧
      hunk.reverse.applyText "a\nc\nd\n".toList = some "a\nb".toList :=
  ⟨by decide, replacementPatch_faithful "/x".toList (by decide)⟩

example : replacementPatch "/x".toList "a\nb".toList "a\nc\nd\n".toList
    = ("--- /x\n+++ /x\n@@ -1,2 +1,3 @@\n a\n-b\n\\ No newline at end of file\n" ++
      "+c\n+d\n").toList := by
  decide +kernel

end Sample

end Zeta.Edit
