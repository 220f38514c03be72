import Mathlib.Data.List.Perm.Basic
import ZetaRuntime.Edit.Files
import ZetaRuntime.Journal
import ZetaRuntime.Library.Search

/-!
# The hunks of a patch

An update of a file is a list of hunks. A hunk has lines that stay, lines that go and lines that
come; the first two are found in the file, one behind the other, and what stays and what comes is
put in their place. The search starts behind the hunk before. A hunk may name a line that it is
behind, and may say that it is at the end of the file. There must be one place, neither none nor
several. A hunk that only brings lines has its place where the search starts, or at the end of the
file.

`Edits` says this of the lines of the file alone: what is left of it is, from hunk to hunk, what is
kept, the old lines of the hunk, and a rest. The loop of the tool has the edited lines and an index
in them instead, and what is behind that index is that rest, untouched. So the loop succeeds exactly
if `Edits` holds (`applyHunks_iff`).

The loop stops the program if it compares a hunk that is longer than the file with the beginning of
the file (`applyHunks_panics_iff`).

## Main definitions

* `applyHunks` — the loop of the tool
* `Edits` — what hunks make of lines

## Main results

* `applyHunks_iff`, `applyHunks_panics_iff` — when the loop returns, and when it stops the program
* `applyHunks_edits` — an applied patch
-/

namespace Zeta.Edit

open Outcome Search

variable {current : List Text} {found : List ℕ} {cursor i : ℕ}

variable {before line : Text}

/-! ### Hunks -/

/-- A line of a patch. -/
abbrev PlainLine := {line : Text // '\n' ∉ line}

/-- The lines of a patch. -/
def plainLines (text : Text) : List PlainLine :=
  (lines text).attach.map fun line => ⟨line.val, newline_notMem_lines line.property⟩

inductive HunkMark where
  | kept
  | added
  | removed
  deriving DecidableEq, Repr

/-- A line of a hunk. -/
structure HunkLine where
  mark : HunkMark
  text : PlainLine

structure PatchHunk where
  context : Text
  lines : List HunkLine
  endOfFile : Bool
  lines_ne_nil : lines ≠ []

/-- The lines that a hunk replaces. -/
def PatchHunk.oldLines (hunk : PatchHunk) : List Text :=
  (hunk.lines.filter (·.mark ≠ .added)).map fun line => line.text.val ++ ['\n']

/-- The lines that it replaces them by. -/
def PatchHunk.newLines (hunk : PatchHunk) : List Text :=
  (hunk.lines.filter (·.mark ≠ .removed)).map fun line => line.text.val ++ ['\n']

def readHunkLine : PlainLine → Option HunkLine
  | ⟨' ' :: text, h⟩ => some ⟨.kept, text, fun hmem => h (.tail _ hmem)⟩
  | ⟨'+' :: text, h⟩ => some ⟨.added, text, fun hmem => h (.tail _ hmem)⟩
  | ⟨'-' :: text, h⟩ => some ⟨.removed, text, fun hmem => h (.tail _ hmem)⟩
  | _ => none

def invalidPatch (message : String) : ToolError := ⟨"invalid-patch", message⟩

/-- A hunk whose lines were all read. -/
def finishHunk (context : Text) (body : List HunkLine) (endOfFile : Bool) :
    Except ToolError PatchHunk :=
  if h : body = [] then .error (invalidPatch "update hunk has no lines")
  else .ok ⟨context, body, endOfFile, h⟩

/-- The line behind the mark of a hunk. -/
def hunkContext (header : Text) : Text := (trim (String.ofList header)).toList

/-- The hunks in some lines, with the one that is being read. -/
def parseHunkLines : Option (Text × List HunkLine) → List PlainLine →
    Except ToolError (List PatchHunk)
  | none, [] => .ok []
  | none, line :: rest =>
    match stripStart ['@', '@'] line.val with
    | none => .error (invalidPatch "each update hunk must start with @@")
    | some header => parseHunkLines (some (hunkContext header, [])) rest
  | some (context, body), [] => do
    let hunk ← finishHunk context body false
    return [hunk]
  | some (context, body), line :: rest =>
    match stripStart ['@', '@'] line.val with
    | some header => do
      let hunk ← finishHunk context body false
      let hunks ← parseHunkLines (some (hunkContext header, [])) rest
      return hunk :: hunks
    | none =>
      if line.val = "*** End of File".toList then do
        let hunk ← finishHunk context body true
        let hunks ← parseHunkLines none rest
        return hunk :: hunks
      else
        match readHunkLine line with
        | none => .error (invalidPatch "update lines must start with a space, +, or -")
        | some row => parseHunkLines (some (context, body ++ [row])) rest

def parseHunks (lines : List PlainLine) : Except ToolError (List PatchHunk) := do
  let hunks ← parseHunkLines none lines
  ensure (hunks ≠ []) (invalidPatch "update has no hunks")
  return hunks

/-! ### The loop over hunks -/

/-- A line without what ends it. -/
def trimLine (line : Text) : Text := (line.reverse.dropWhile fun c => c = '\r' ∨ c = '\n').reverse

/-- A text without the line breaks at its end. -/
def trimNewlines (text : Text) : Text := (text.reverse.dropWhile (· = '\n')).reverse

/-- The only match that there is. -/
def uniquePatchMatch (found : List ℕ) (label context : Text) : Except ToolError ℕ :=
  match found with
  | [] => .error ⟨"patch-context-mismatch",
      "patch context was not found in " ++ String.ofList
        (label ++ ": ".toList ++ trimNewlines context)⟩
  | [i] => .ok i
  | _ => .error ⟨"patch-context-ambiguous",
      "patch context matched more than once in " ++ String.ofList
        (label ++ ": ".toList ++ trimNewlines context)⟩

/-- Where the search for a hunk starts: behind the line that it names. -/
def findAnchor (hunk : PatchHunk) (label : Text) (current : List Text) (cursor : ℕ) :
    Except ToolError ℕ :=
  if hunk.context = [] then .ok cursor
  else do
    let i ← uniquePatchMatch
      ((List.range current.length).filter fun i => cursor ≤ i ∧
        (current[i]?.map trimLine) = some hunk.context)
      label hunk.context
    return i + 1

/-- The places at which a hunk's old lines are. The loop compares them with the lines from each
index on, and an index too close to the end is out of bounds. -/
def blockMatches (hunk : PatchHunk) (current : List Text) (cursor : ℕ) : Option (List ℕ) :=
  let last := current.length - hunk.oldLines.length
  let indices := (List.range (last + 1)).filter (cursor ≤ ·)
  if ∀ i ∈ indices, i + hunk.oldLines.length ≤ current.length then
    some (indices.filter fun i => (current.drop i).take hunk.oldLines.length = hunk.oldLines ∧
      (hunk.endOfFile = true → i + hunk.oldLines.length = current.length))
  else none

/-- The place of a hunk. -/
def findBlock (hunk : PatchHunk) (label : Text) (current : List Text) (cursor : ℕ) :
    Except Failure ℕ :=
  if hunk.oldLines = [] then .ok (if hunk.endOfFile then current.length else cursor)
  else do
    let found ← require (blockMatches hunk current cursor) .panic
    (uniquePatchMatch found label hunk.oldLines.flatten).mapError .reported

/-- The old lines at an index replaced by the new ones, and the index behind those. -/
def spliceHunk (hunk : PatchHunk) (current : List Text) (i : ℕ) : Except Failure (List Text × ℕ) :=
  if i + hunk.oldLines.length ≤ current.length then
    .ok (current.take i ++ hunk.newLines ++ current.drop (i + hunk.oldLines.length),
      i + hunk.newLines.length)
  else .error .panic

/-- One hunk, on the lines as they are and the index behind the last hunk. -/
def applyHunk (label : Text) (state : List Text × ℕ) (hunk : PatchHunk) :
    Except Failure (List Text × ℕ) := do
  let cursor ← (findAnchor hunk label state.1 state.2).mapError .reported
  let i ← findBlock hunk label state.1 cursor
  spliceHunk hunk state.1 i

def applyHunks (before : Text) (hunks : List PatchHunk) (label : Text) : Except Failure Text := do
  let state ← foldOk (applyHunk label) (ownedLines before, 0) hunks
  return state.1.flatten

/-! ### What hunks make of lines -/

/-- What a hunk passes over: nothing, or the lines up to the only one that it names. -/
def Skips (hunk : PatchHunk) (skipped rest : List Text) : Prop :=
  if hunk.context = [] then skipped = []
  else ∃ passed line, skipped = passed ++ [line] ∧ trimLine line = hunk.context ∧
    ∀ other ∈ passed ++ rest, trimLine other ≠ hunk.context

/-- The old lines of a hunk are at their place: between what is kept and a rest, and nowhere else.
-/
def Fits (hunk : PatchHunk) (kept rest : List Text) : Prop :=
  if hunk.oldLines = [] then (if hunk.endOfFile then rest = [] else kept = [])
  else (hunk.endOfFile = true → rest = []) ∧
    ∀ i, OccursAt hunk.oldLines (kept ++ hunk.oldLines ++ rest) i →
      (hunk.endOfFile = true → i + hunk.oldLines.length = (kept ++ hunk.oldLines ++ rest).length) →
      i = kept.length

/-- **What hunks make of lines.** Each replaces its old lines in what the one before it left. -/
inductive Edits : List PatchHunk → List Text → List Text → Prop
  | nil (lines : List Text) : Edits [] lines lines
  | cons {hunk : PatchHunk} {hunks : List PatchHunk} {skipped kept rest result : List Text}
      (skips : Skips hunk skipped (kept ++ hunk.oldLines ++ rest)) (fits : Fits hunk kept rest)
      (edits : Edits hunks rest result) :
      Edits (hunk :: hunks) (skipped ++ (kept ++ hunk.oldLines ++ rest))
        (skipped ++ kept ++ hunk.newLines ++ result)

theorem edits_cons_iff {hunk : PatchHunk} {hunks : List PatchHunk} {lines edited : List Text} :
    Edits (hunk :: hunks) lines edited ↔
      ∃ skipped kept rest result, lines = skipped ++ (kept ++ hunk.oldLines ++ rest) ∧
        edited = skipped ++ kept ++ hunk.newLines ++ result ∧
        Skips hunk skipped (kept ++ hunk.oldLines ++ rest) ∧ Fits hunk kept rest ∧
          Edits hunks rest result := by
  constructor
  · rintro ⟨⟩
    exact ⟨_, _, _, _, rfl, rfl, ‹_›, ‹_›, ‹_›⟩
  · rintro ⟨skipped, kept, rest, result, rfl, rfl, hskips, hfits, hedits⟩
    exact .cons hskips hfits hedits

/-! ### One match -/

theorem uniquePatchMatch_ok_iff {label context : Text} :
    uniquePatchMatch found label context = .ok i ↔ found = [i] := by
  rcases found with _ | ⟨j, _ | ⟨k, found⟩⟩ <;> simp [uniquePatchMatch]

theorem eq_singleton_iff (h : found.Nodup) : found = [i] ↔ ∀ j, j ∈ found ↔ j = i := by
  rw [← List.perm_singleton, List.perm_ext_iff_of_nodup h (List.nodup_singleton i)]
  simp only [List.mem_singleton]

variable {hunk : PatchHunk} {label : Text} {done rest : List Text}

/-- The line that a hunk names is found behind the last hunk. -/
theorem findAnchor_iff :
    findAnchor hunk label (done ++ rest) done.length = .ok cursor ↔
      ∃ skipped behind, rest = skipped ++ behind ∧ cursor = (done ++ skipped).length ∧
        Skips hunk skipped behind := by
  rw [findAnchor]
  by_cases hcontext : hunk.context = []
  · rw [if_pos hcontext]
    simp only [Skips, if_pos hcontext, Except.ok.injEq]
    constructor
    · rintro rfl
      exact ⟨[], rest, rfl, by rw [List.append_nil], rfl⟩
    · rintro ⟨skipped, behind, -, rfl, rfl⟩
      rw [List.append_nil]
  · have hindex (j : ℕ) : (j < (done ++ rest).length ∧ done.length ≤ j ∧
        (done ++ rest)[j]?.map trimLine = some hunk.context) ↔
        done.length ≤ j ∧ ∃ line, rest[j - done.length]? = some line ∧
          trimLine line = hunk.context := by
      constructor
      · rintro ⟨-, hle, hline⟩
        rw [List.getElem?_append_right hle, Option.map_eq_some_iff] at hline
        exact ⟨hle, hline⟩
      · rintro ⟨hle, line, hline, hcontext⟩
        have hlt := (List.getElem?_eq_some_iff.mp hline).1
        refine ⟨by rw [List.length_append]; omega, hle, ?_⟩
        rw [List.getElem?_append_right hle, hline, Option.map_some, hcontext]
    rw [if_neg hcontext]
    simp only [Skips, if_neg hcontext, ok_iff, uniquePatchMatch_ok_iff,
      eq_singleton_iff (List.nodup_range.filter _), List.mem_filter, List.mem_range,
      decide_eq_true_eq, hindex]
    constructor
    · rintro ⟨i, hi, rfl⟩
      obtain ⟨k, rfl,
        hk⟩ := (forall_shift_iff
        (p := fun k => ∃ y, rest[k]? = some y ∧ trimLine y = hunk.context)).mp hi
      rw [forall_getElem?_iff] at hk
      obtain ⟨passed, line, behind, rfl, rfl, hline, hother⟩ := hk
      refine ⟨passed ++ [line], behind,
        by simp, by simp [Nat.add_assoc], passed, line, rfl, hline, hother⟩
    · rintro ⟨_, behind, rfl, rfl, passed, line, rfl, hline, hother⟩
      refine ⟨done.length + passed.length, ?_, by simp [Nat.add_assoc]⟩
      refine (forall_shift_iff (p := fun k => ∃ y, (passed ++ [line] ++ behind)[k]? = some y ∧
        trimLine y = hunk.context)).mpr ⟨passed.length, rfl, ?_⟩
      rw [forall_getElem?_iff]
      exact ⟨passed, line, behind, by simp, rfl, hline, hother⟩

/-- The places of a hunk that the loop finds. -/
theorem mem_blockMatches (hold : hunk.oldLines ≠ [])
    (h : blockMatches hunk current cursor = some found) (i : ℕ) :
    i ∈ found ↔ cursor ≤ i ∧ OccursAt hunk.oldLines current i ∧
      (hunk.endOfFile = true → i + hunk.oldLines.length = current.length) := by
  have hiff (i : ℕ) : OccursAt hunk.oldLines current i ↔
      (current.drop i).take hunk.oldLines.length = hunk.oldLines := by
    rw [OccursAt, List.prefix_iff_eq_take, eq_comm]
  unfold blockMatches at h
  dsimp only at h
  split at h
  · obtain rfl := Option.some.inj h
    simp only [List.mem_filter, List.mem_range, decide_eq_true_eq, ← hiff]
    constructor
    · rintro ⟨⟨-, hcursor⟩, hoccurs, hend⟩
      exact ⟨hcursor, hoccurs, hend⟩
    · rintro ⟨hcursor, hoccurs, hend⟩
      have hle := hoccurs.le hold
      exact ⟨⟨by omega, hcursor⟩, hoccurs, hend⟩
  · cases h

theorem nodup_blockMatches (h : blockMatches hunk current cursor = some found) : found.Nodup := by
  unfold blockMatches at h
  dsimp only at h
  split at h
  · rw [← Option.some.inj h]
    exact (List.nodup_range.filter _).filter _
  · cases h

/-- The loop stops the program if a hunk is longer than the file and the search starts at its
beginning. -/
theorem blockMatches_eq_none_iff :
    blockMatches hunk current cursor = none ↔
      cursor = 0 ∧ current.length < hunk.oldLines.length := by
  unfold blockMatches
  dsimp only
  split
  · next h =>
    refine iff_of_false nofun ?_
    rintro ⟨rfl, hlt⟩
    have hzero := h 0 (by simp)
    omega
  · next h =>
    refine iff_of_true rfl ?_
    push Not at h
    obtain ⟨i, hi, hlt⟩ := h
    simp only [List.mem_filter, List.mem_range, decide_eq_true_eq] at hi
    omega

/-- A place of a hunk in the lines behind the last one. -/
def IsPlace (hunk : PatchHunk) (rest : List Text) (i : ℕ) : Prop :=
  OccursAt hunk.oldLines rest i ∧ (hunk.endOfFile = true → i + hunk.oldLines.length = rest.length)

/-- The places that the loop finds are the places behind the last hunk. -/
theorem mem_blockMatches_append (hold : hunk.oldLines ≠ [])
    (h : blockMatches hunk (done ++ rest) done.length = some found) (i : ℕ) :
    i ∈ found ↔ done.length ≤ i ∧ IsPlace hunk rest (i - done.length) := by
  rw [mem_blockMatches hold h, IsPlace]
  refine and_congr_right fun hle => ?_
  have hoccurs : OccursAt hunk.oldLines rest (i - done.length) ↔
      OccursAt hunk.oldLines (done ++ rest) i := by
    have hdrop : rest = (done ++ rest).drop done.length := List.drop_left.symm
    conv_lhs => rw [hdrop]
    rw [occursAt_drop, Nat.add_sub_cancel' hle]
  have hend : i + hunk.oldLines.length = (done ++ rest).length ↔
      i - done.length + hunk.oldLines.length = rest.length := by
    rw [List.length_append]
    omega
  rw [hoccurs, hend]

/-- There is one place exactly if the old lines fit between the lines before and behind it. -/
theorem isPlace_iff_fits (hold : hunk.oldLines ≠ []) {k : ℕ} :
    (∀ j, IsPlace hunk rest j ↔ j = k) ↔
      ∃ kept behind, rest = kept ++ hunk.oldLines ++ behind ∧ kept.length = k ∧
        Fits hunk kept behind := by
  constructor
  · intro h
    obtain ⟨hoccurs, hend⟩ := (h k).mpr rfl
    have hle := hoccurs.le hold
    obtain ⟨kept, behind, rfl, rfl⟩ := hoccurs.split (by omega)
    refine ⟨kept, behind, rfl, rfl, ?_⟩
    rw [Fits, if_neg hold]
    refine ⟨fun heof => ?_, fun i hi heof => (h i).mp ⟨hi, heof⟩⟩
    have hlength := hend heof
    rw [List.length_append, List.length_append] at hlength
    exact List.eq_nil_of_length_eq_zero (by omega)
  · rintro ⟨kept, behind, rfl, rfl, hfits⟩ j
    rw [Fits, if_neg hold] at hfits
    constructor
    · rintro ⟨hoccurs, hend⟩
      exact hfits.2 j hoccurs hend
    · rintro rfl
      refine ⟨?_, fun heof => ?_⟩
      · rw [OccursAt, List.append_assoc, List.drop_left]
        exact List.prefix_append _ _
      · rw [hfits.1 heof, List.append_nil, List.length_append]

/-- A hunk has one place behind the last one. -/
theorem findBlock_iff :
    findBlock hunk label (done ++ rest) done.length = .ok i ↔
      ∃ kept behind, rest = kept ++ hunk.oldLines ++ behind ∧ i = (done ++ kept).length ∧
        Fits hunk kept behind := by
  rw [findBlock]
  by_cases hold : hunk.oldLines = []
  · simp only [Fits, hold, if_true, Except.ok.injEq, List.append_nil]
    cases hunk.endOfFile
    · constructor
      · rintro rfl
        exact ⟨[], rest, rfl, by simp, rfl⟩
      · rintro ⟨kept, behind, rfl, rfl, rfl⟩
        simp
    · constructor
      · rintro rfl
        exact ⟨rest, [], by simp, rfl, rfl⟩
      · rintro ⟨kept, behind, rfl, rfl, rfl⟩
        simp
  · simp only [if_neg hold, ok_iff, mapError_ok_iff, uniquePatchMatch_ok_iff]
    constructor
    · rintro ⟨found, hfound, hone⟩
      simp only [eq_singleton_iff (nodup_blockMatches hfound),
        mem_blockMatches_append hold hfound] at hone
      obtain ⟨k, rfl, hk⟩ := forall_shift_iff.mp hone
      obtain ⟨kept, behind, hrest, rfl, hfits⟩ := (isPlace_iff_fits hold).mp hk
      exact ⟨kept, behind, hrest, List.length_append.symm, hfits⟩
    · rintro ⟨kept, behind, rfl, rfl, hfits⟩
      cases hfound : blockMatches hunk (done ++ (kept ++ hunk.oldLines ++ behind)) done.length with
      | none =>
        have hlt := (blockMatches_eq_none_iff.mp hfound).2
        simp only [List.length_append] at hlt
        omega
      | some found =>
        refine ⟨found, rfl, ?_⟩
        simp only [eq_singleton_iff (nodup_blockMatches hfound),
          mem_blockMatches_append hold hfound]
        exact forall_shift_iff.mpr
          ⟨kept.length, List.length_append,
          (isPlace_iff_fits hold).mpr ⟨kept, behind, rfl, rfl, hfits⟩⟩

/-! ### The loop -/

/-- The old lines are replaced at their place. -/
theorem spliceHunk_eq (hunk : PatchHunk) (front behind : List Text) :
    spliceHunk hunk (front ++ hunk.oldLines ++ behind) front.length
      = .ok (front ++ hunk.newLines ++ behind, (front ++ hunk.newLines).length) := by
  have htake : (front ++ hunk.oldLines ++ behind).take front.length = front := by
    rw [List.append_assoc, List.take_left]
  have hdrop : (front ++ hunk.oldLines ++ behind).drop (front.length + hunk.oldLines.length) =
      behind := by
    rw [← List.length_append, List.drop_left]
  have hle : front.length + hunk.oldLines.length ≤ (front ++ hunk.oldLines ++ behind).length := by
    simp only [List.length_append]
    omega
  rw [spliceHunk, if_pos hle, htake, hdrop, List.length_append]

/-- **One hunk.** The loop has the lines before the last hunk, and the rest. -/
theorem applyHunk_iff {state : List Text × ℕ} :
    applyHunk label (done ++ rest, done.length) hunk = .ok state ↔
      ∃ skipped kept behind, rest = skipped ++ (kept ++ hunk.oldLines ++ behind) ∧
        Skips hunk skipped (kept ++ hunk.oldLines ++ behind) ∧ Fits hunk kept behind ∧
        state = (done ++ skipped ++ kept ++ hunk.newLines ++ behind,
          (done ++ skipped ++ kept ++ hunk.newLines).length) := by
  simp only [applyHunk, bind_ok_iff, mapError_ok_iff, findAnchor_iff]
  have hlines (skipped kept behind : List Text) : done ++
    (skipped ++ (kept ++ hunk.oldLines ++ behind))
      = (done ++ skipped ++ kept) ++ hunk.oldLines ++ behind := by
    simp only [List.append_assoc]
  constructor
  · rintro ⟨_, ⟨skipped, rest', rfl, rfl, hskips⟩, i, hi, hstate⟩
    rw [← List.append_assoc, findBlock_iff] at hi
    obtain ⟨kept, behind, rfl, rfl, hfits⟩ := hi
    rw [hlines, spliceHunk_eq, Except.ok.injEq] at hstate
    exact ⟨skipped, kept, behind, rfl, hskips, hfits, hstate.symm⟩
  · rintro ⟨skipped, kept, behind, rfl, hskips, hfits, rfl⟩
    refine ⟨_, ⟨skipped, _, rfl, rfl, hskips⟩, (done ++ skipped ++ kept).length, ?_, ?_⟩
    · rw [← List.append_assoc, findBlock_iff]
      exact ⟨kept, behind, rfl, rfl, hfits⟩
    · rw [hlines, spliceHunk_eq]

/-- **The loop.** What is behind the last hunk is edited, and what is before it stays. -/
theorem foldOk_applyHunk_iff {hunks : List PatchHunk} {lines : List Text} :
    (∃ cursor, foldOk (applyHunk label) (done ++ rest, done.length) hunks = .ok (lines, cursor)) ↔
      ∃ result, Edits hunks rest result ∧ lines = done ++ result := by
  induction hunks generalizing done rest with
  | nil =>
    constructor
    · rintro ⟨cursor, h⟩
      obtain ⟨rfl, -⟩ := Prod.mk.inj (Except.ok.inj h)
      exact ⟨rest, .nil rest, rfl⟩
    · rintro ⟨_, ⟨⟩, rfl⟩
      exact ⟨done.length, rfl⟩
  | cons hunk hunks ih =>
    simp only [foldOk_cons, bind_ok_iff, applyHunk_iff]
    constructor
    · rintro ⟨cursor, _, ⟨skipped, kept, behind, rfl, hskips, hfits, rfl⟩, hrun⟩
      obtain ⟨result, hedits, rfl⟩ := ih.mp ⟨cursor, hrun⟩
      exact ⟨_, .cons hskips hfits hedits, by simp only [List.append_assoc]⟩
    · rintro ⟨_, hedits, rfl⟩
      obtain ⟨skipped, kept, behind, result, rfl, rfl, hskips, hfits, hedits⟩ := edits_cons_iff.mp
        hedits
      have hedited : done ++ (skipped ++ kept ++ hunk.newLines ++ result)
          = done ++ skipped ++ kept ++ hunk.newLines ++ result := by
        simp only [List.append_assoc]
      obtain ⟨cursor, hrun⟩ := (@ih (done ++ skipped ++ kept ++ hunk.newLines) behind).mpr
        ⟨result, hedits, hedited⟩
      refine ⟨cursor, _, ⟨skipped, kept, behind, rfl, hskips, hfits, rfl⟩, hrun⟩

/-- What the loop returns. -/
theorem applyHunks_iff {result : Text} {hunks : List PatchHunk} :
    applyHunks before hunks label = .ok result ↔
      ∃ edited, Edits hunks (ownedLines before) edited ∧ result = edited.flatten := by
  have hloop {edited : List Text} :
      (∃ cursor, foldOk (applyHunk label) (ownedLines before, 0) hunks = .ok (edited, cursor)) ↔
        ∃ result, Edits hunks (ownedLines before) result ∧ edited = result :=
    @foldOk_applyHunk_iff label [] (ownedLines before) hunks edited
  simp only [applyHunks, ok_iff, Prod.exists]
  constructor
  · rintro ⟨edited, cursor, hrun, rfl⟩
    obtain ⟨_, hedits, rfl⟩ := hloop.mp ⟨cursor, hrun⟩
    exact ⟨edited, hedits, rfl⟩
  · rintro ⟨edited, hedits, rfl⟩
    obtain ⟨cursor, hrun⟩ := hloop.mpr ⟨edited, hedits, rfl⟩
    exact ⟨edited, cursor, hrun, rfl⟩

/-! ### When the program stops -/

theorem mapError_reported_ne_panic {α : Type} {x : Except ToolError α} :
    x.mapError Failure.reported ≠ .error .panic := by
  cases x <;> simp [Except.mapError]

/-- Looking for a hunk stops the program if the hunk is longer than the file and nothing is before
it. -/
theorem findBlock_panics_iff :
    findBlock hunk label (done ++ rest) done.length = .error .panic ↔
      done = [] ∧ rest.length < hunk.oldLines.length := by
  rw [findBlock]
  split
  · next hold => simp [hold]
  · simp only [bind_error_iff, require_error_iff, require_ok_iff, mapError_reported_ne_panic,
      and_false, exists_false, or_false, and_true, blockMatches_eq_none_iff,
      List.length_eq_zero_iff]
    constructor
    · rintro ⟨rfl, hlt⟩
      exact ⟨rfl, hlt⟩
    · rintro ⟨rfl, hlt⟩
      exact ⟨rfl, hlt⟩

/-- A hunk that names a line is behind that line. -/
theorem Skips.eq_nil_iff {skipped behind : List Text} (h : Skips hunk skipped behind) :
    skipped = [] ↔ hunk.context = [] := by
  rw [Skips] at h
  split at h
  · next hcontext => exact iff_of_true h hcontext
  · next hcontext =>
    obtain ⟨passed, line, rfl, -⟩ := h
    exact iff_of_false (by simp) hcontext

theorem applyHunk_panics_iff :
    applyHunk label (done ++ rest, done.length) hunk = .error .panic ↔
      done = [] ∧ hunk.context = [] ∧ rest.length < hunk.oldLines.length := by
  simp only [applyHunk, bind_error_iff, mapError_reported_ne_panic, false_or, mapError_ok_iff,
    findAnchor_iff]
  constructor
  · rintro ⟨_, ⟨skipped, behind, rfl, rfl, hskips⟩, hpanic | ⟨i, hi, hpanic⟩⟩
    · rw [← List.append_assoc, findBlock_panics_iff, List.append_eq_nil_iff] at hpanic
      obtain ⟨⟨rfl, rfl⟩, hlt⟩ := hpanic
      exact ⟨rfl, hskips.eq_nil_iff.mp rfl, hlt⟩
    · rw [← List.append_assoc, findBlock_iff] at hi
      obtain ⟨kept, behind, rfl, rfl, -⟩ := hi
      rw [← List.append_assoc, ← List.append_assoc, ← List.append_assoc, spliceHunk_eq] at hpanic
      cases hpanic
  · rintro ⟨rfl, hcontext, hlt⟩
    refine ⟨0, ⟨[], rest, rfl, rfl, ?_⟩, .inl (findBlock_panics_iff.mpr ⟨rfl, hlt⟩)⟩
    rw [Skips, if_pos hcontext]

/-- A hunk is longer than all that is left of the file, and all before it was removed. -/
inductive Overlong : List PatchHunk → List Text → Prop
  | here {hunk : PatchHunk} {hunks : List PatchHunk} {lines : List Text}
    (context : hunk.context = [])
      (longer : lines.length < hunk.oldLines.length) : Overlong (hunk :: hunks) lines
  | later {hunk : PatchHunk} {hunks : List PatchHunk} {rest : List Text}
    (context : hunk.context = [])
      (removes : hunk.newLines = []) (fits : Fits hunk [] rest) (overlong : Overlong hunks rest) :
      Overlong (hunk :: hunks) (hunk.oldLines ++ rest)

/-- The loop stops the program only while nothing is before the hunk. -/
theorem foldOk_applyHunk_panics_iff {hunks : List PatchHunk} :
    foldOk (applyHunk label) (done ++ rest, done.length) hunks = .error .panic ↔
      done = [] ∧ Overlong hunks rest := by
  induction hunks generalizing done rest with
  | nil => exact iff_of_false nofun nofun
  | cons hunk hunks ih =>
    simp only [foldOk_cons, bind_error_iff, applyHunk_panics_iff, applyHunk_iff]
    constructor
    · rintro (⟨rfl, hcontext, hlt⟩ | ⟨_, ⟨skipped, kept, behind, rfl, hskips, hfits, rfl⟩, hpanic⟩)
      · exact ⟨rfl, .here hcontext hlt⟩
      · obtain ⟨hnil, hoverlong⟩ := ih.mp hpanic
        simp only [List.append_eq_nil_iff] at hnil
        obtain ⟨⟨⟨rfl, rfl⟩, rfl⟩, hnew⟩ := hnil
        exact ⟨rfl, .later (hskips.eq_nil_iff.mp rfl) hnew hfits hoverlong⟩
    · rintro ⟨rfl, hoverlong⟩
      cases hoverlong with
      | here hcontext hlt => exact .inl ⟨rfl, hcontext, hlt⟩
      | @later _ _ behind hcontext hnew hfits hoverlong =>
        refine .inr ⟨_, ⟨[], [], behind, rfl, ?_, hfits, rfl⟩, ih.mpr ⟨?_, hoverlong⟩⟩
        · rw [Skips, if_pos hcontext]
        · simp [hnew]

/-- When the loop stops the program. -/
theorem applyHunks_panics_iff {hunks : List PatchHunk} :
    applyHunks before hunks label = .error .panic ↔ Overlong hunks (ownedLines before) := by
  have hloop : foldOk (applyHunk label) (ownedLines before, 0) hunks = .error .panic ↔
      [] = [] ∧ Overlong hunks (ownedLines before) :=
    @foldOk_applyHunk_panics_iff label [] (ownedLines before) hunks
  simp only [applyHunks, bind_error_iff, pure_error_iff, and_false, exists_false, or_false, hloop,
    true_and]

/-! ### The lines of the result -/

theorem PatchHunk.ended_of_mem_newLines (h : line ∈ hunk.newLines) :
    Lines.Ended '\n' line := by
  obtain ⟨row, -, rfl⟩ := List.mem_map.mp h
  exact ⟨row.text.val, row.text.property, rfl⟩

theorem PatchHunk.ended_of_mem_oldLines (h : line ∈ hunk.oldLines) :
    Lines.Ended '\n' line := by
  obtain ⟨row, -, rfl⟩ := List.mem_map.mp h
  exact ⟨row.text.val, row.text.property, rfl⟩

theorem filter_ended {lines : List Text} (h : ∀ line ∈ lines, Lines.Ended '\n' line) :
    lines.filter ('\n' ∉ ·) = [] := by
  rw [List.filter_eq_nil_iff]
  intro line hline
  obtain ⟨body, -, rfl⟩ := h line hline
  simp

/-- A text has at most one line without a line break, the last one. -/
theorem filter_ownedLines_length_le (text : Text) :
    ((ownedLines text).filter ('\n' ∉ ·)).length ≤ 1 := by
  have hended {line : Text} (h : line ∈ (ownedLines text).dropLast) : Lines.Ended '\n' line :=
    Lines.ended_of_mem_dropLast h
  rcases List.eq_nil_or_concat' (ownedLines text) with hnil | ⟨init, last, hlast⟩
  · rw [hnil]
    exact Nat.zero_le 1
  · rw [hlast, List.dropLast_concat] at hended
    rw [hlast, List.filter_append, filter_ended fun _ => hended, List.nil_append]
    exact List.length_filter_le _ _

variable {hunks : List PatchHunk} {lines edited : List Text}

/-- What hunks make of lines are lines. -/
theorem Edits.ended_or_unended (h : Edits hunks lines edited)
    (hlines : ∀ line ∈ lines, Lines.Ended '\n' line ∨ Lines.Unended '\n' line) :
    ∀ line ∈ edited, Lines.Ended '\n' line ∨ Lines.Unended '\n' line := by
  induction h with
  | nil => exact hlines
  | cons skips fits edits ih =>
    simp only [List.mem_append] at hlines ⊢
    rintro line (((hline | hline) | hline) | hline)
    · exact hlines line (.inl hline)
    · exact hlines line (.inr (.inl (.inl hline)))
    · exact .inl (PatchHunk.ended_of_mem_newLines hline)
    · exact ih (fun line hline => hlines line (.inr (.inr hline))) line hline

/-- A line without a line break stays. -/
theorem Edits.filter_eq (h : Edits hunks lines edited) :
    edited.filter ('\n' ∉ ·) = lines.filter ('\n' ∉ ·) := by
  induction h with
  | nil => rfl
  | cons skips fits edits ih =>
    simp only [List.filter_append, ih, filter_ended fun _ => PatchHunk.ended_of_mem_newLines,
      filter_ended fun _ => PatchHunk.ended_of_mem_oldLines, List.append_assoc]

/-- The edited lines are the lines of the result if a last line without a line break is still the
last one. -/
theorem Edits.ownedLines_flatten_iff (h : Edits hunks (ownedLines before) edited) :
    ownedLines edited.flatten = edited ↔
      ∀ line ∈ ownedLines before, '\n' ∉ line → edited.getLast? = some line := by
  have hmem {line : Text} : line ∈ edited ∧ '\n' ∉ line ↔ line ∈ ownedLines before ∧
      '\n' ∉ line := by
    have hfilter := congrArg (line ∈ ·) h.filter_eq
    simpa only [List.mem_filter, decide_eq_true_eq, eq_iff_iff] using hfilter
  have hlines := h.ended_or_unended fun _ => Lines.mem_inclusive
  rw [ownedLines, Lines.inclusive_flatten_iff hlines]
  rcases List.eq_nil_or_concat' edited with rfl | ⟨init, last, rfl⟩
  · refine iff_of_true nofun fun line hline hbreak => ?_
    exact absurd (hmem.mpr ⟨hline, hbreak⟩).1 List.not_mem_nil
  rw [List.dropLast_concat, List.getLast?_concat]
  constructor
  · intro hended line hline hbreak
    rcases List.mem_append.mp (hmem.mpr ⟨hline, hbreak⟩).1 with hinit | hlast
    · obtain ⟨body, -, rfl⟩ := hended line hinit
      simp at hbreak
    · rw [List.mem_singleton.mp hlast]
  · intro hlast line hline
    refine (hlines line (List.mem_append_left _ hline)).resolve_right fun hunended => ?_
    -- Otherwise the line would be there twice, but the file has it once.
    have hbefore := (hmem.mp ⟨List.mem_append_left _ hline, hunended.2⟩).1
    obtain rfl := Option.some.inj (hlast line hbefore hunended.2)
    have hle := filter_ownedLines_length_le before
    rw [← h.filter_eq, List.filter_append, List.length_append] at hle
    have hinit : 0 < (init.filter ('\n' ∉ ·)).length :=
      List.length_pos_of_mem (List.mem_filter.mpr ⟨hline, decide_eq_true hunended.2⟩)
    have hsingle : (List.filter ('\n' ∉ ·) [last]).length = 1 := by
      rw [List.filter_singleton, decide_eq_true hunended.2, cond_true, List.length_singleton]
    omega

/-- **An applied patch.** The program stops exactly if a hunk is longer than the file and is looked
for from its first line. Otherwise a patch is refused with an error or applied, and it is applied
exactly if its hunks have their places one behind the other: a hunk is behind the line that it
names, and its old lines are at one place there. The result is the file with these blocks replaced.
All other lines are unchanged, and they and the new lines are the lines of the result, unless
something is put behind a last line without a line break. -/
theorem applyHunks_edits (before : Text) (hunks : List PatchHunk) (label : Text) :
    (applyHunks before hunks label = .error .panic ↔ Overlong hunks (ownedLines before)) ∧
      ∀ result, applyHunks before hunks label = .ok result ↔
        ∃ edited, Edits hunks (ownedLines before) edited ∧ result = edited.flatten ∧
          (ownedLines result = edited ↔
            ∀ line ∈ ownedLines before, '\n' ∉ line → edited.getLast? = some line) := by
  refine ⟨applyHunks_panics_iff, fun result => ?_⟩
  rw [applyHunks_iff]
  constructor
  · rintro ⟨edited, hedits, rfl⟩
    exact ⟨edited, hedits, rfl, hedits.ownedLines_flatten_iff⟩
  · rintro ⟨edited, hedits, rfl, -⟩
    exact ⟨edited, hedits, rfl⟩

namespace Sample

/-- Hunks read and applied. -/
def patched (hunks before : String) : Except Failure Text := do
  let hunks ← (parseHunks (plainLines hunks.toList)).mapError .reported
  applyHunks before.toList hunks []

/-- A hunk that removes two lines stops the program on a file of one line. -/
theorem twoOfOne_panics : patched "@@\n-a\n-b\n" "a\n" = .error .panic := by decide +kernel

/-- A hunk that names a line is applied although its old line is also before that line. -/
example : patched "@@ b\n-x\n+y\n" "a\nx\nb\nx\n" = .ok "a\nx\nb\ny\n".toList := by decide +kernel

end Sample

end Zeta.Edit
