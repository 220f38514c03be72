import ZetaRuntime.Edit.Diff
import ZetaRuntime.Edit.Files
import ZetaRuntime.Library.Search

/-!
# Exact replacements

The first form of the edit tool replaces one text by another in a file, and refuses if the text is
not there or is there more than once. It counts with a scan from the left that goes on behind each
match. So two occurrences that overlap are counted once, and if all occurrences overlap, the tool
takes the first of them and reports success.
-/

namespace Zeta.Edit

open Outcome Search

/-- The hash of bytes, as it is shown. -/
class ContentHash where
  hashBytes : List UInt8 → String

section Edit

variable [ContentHash]

/-- What an edit that succeeds reports. -/
structure EditResult where
  text : Text
  location : Text
  /-- Which patch was recorded for it. -/
  artifact : ℕ
  hashes : Map
  details : Map

def contentHash (bytes : List UInt8) : String := ContentHash.hashBytes bytes

/-- The hashes of a file as it is and as it is going to be. -/
def changeHashes (disk : Disk) (path : Path) (content : Text) : Map :=
  (match disk.read path with
    | .ok bytes => [("before_hash", .string (contentHash bytes))]
    | .error _ => []) ++ [("after_hash", .string (contentHash (Utf8.encode content)))]

/-- An edit that changes something is written and recorded. If it cannot be recorded, it has been
written. -/
def finishEdit (disk : Disk) (location : Path) (before after : Text) (details : Map) :
    Except ToolError EditResult × Disk :=
  let patch := replacementPatch location.display before after
  if patch = [] then (.error ⟨"empty-edit", "replacement did not change the file"⟩, disk)
  else
    let hashes := changeHashes disk location after
    match disk.write location (Utf8.encode after) with
    | .error error => (.error ⟨"write-failed", error.text⟩, disk)
    | .ok written =>
      match written.writeArtifact patch with
      | .error error => (.error ⟨"artifact-write-failed", error.text⟩, written)
      | .ok recorded =>
        (.ok ⟨"applied exact replacement to ".toList ++ location.display, location.display,
          disk.artifacts.length, hashes, details⟩, recorded)

omit [ContentHash] in
/-- The file that a replacement is about, its text, and the text with the replacement. -/
def exactReplacement (params : Map) (base : Path) (disk : Disk) :
    Except ToolError (Path × Text × Text) := do
  ensure (stringParam params "location" ≠ []) ⟨"missing-location", "missing location"⟩
  let location := resolvePath (stringParam params "location") base
  let old := stringParam params "old"
  ensure (old ≠ []) ⟨"missing-old", "missing old"⟩
  let new := stringParam params "new"
  let before ← readUtf8 disk location
  let found := (matchIndices old before).length
  ensure (found ≠ 0) ⟨"old-text-not-found", "old text was not found"⟩
  ensure (¬1 < found) ⟨"old-text-not-unique", "old text matched more than once"⟩
  return (location, before, replaceFirst old new before)

def exactEdit (params : Map) (base : Path) (disk : Disk) : Except ToolError EditResult × Disk :=
  match exactReplacement params base disk with
  | .error error => (.error error, disk)
  | .ok (location, before, after) =>
    finishEdit disk location before after [("operation", .string "exact_replace")]

/-- A text with its only occurrence of another one replaced. -/
def ReplacesOnly (old new before after : Text) : Prop :=
  ∃ left right, before = left ++ old ++ right ∧ after = left ++ new ++ right ∧
    ∀ i, OccursAt old before i ↔ i = left.length

/-! ### What an edit does -/

/-- What an edit of a file that is there does. It succeeds exactly if it changes something and can
be recorded; otherwise the file has changed if the edit changes something. -/
theorem finishEdit_eq {disk : Disk} {location : Path} {before : Text}
    (h : disk.Holds location before) (after : Text) (details : Map) :
    ∃ outcome, finishEdit disk location before after details = (outcome,
        if before = after then disk
        else if disk.artifactError = none then (disk.put location (Utf8.encode after)).record
          (replacementPatch location.display before after)
        else disk.put location (Utf8.encode after)) ∧
      ((∃ result, outcome = .ok result) ↔ before ≠ after ∧ disk.artifactError = none) := by
  have hpatch := replacementPatch_eq_nil_iff location.display before after
  by_cases hsame : before = after
  · refine ⟨_, by rw [finishEdit, if_pos (hpatch.mpr hsame), if_pos hsame], ?_⟩
    simp [hsame]
  · have herror : ∀ bytes, (disk.put location bytes).artifactError = disk.artifactError := fun _ =>
      rfl
    simp only [finishEdit, if_neg (mt hpatch.mp hsame), if_neg hsame, h.write, Disk.writeArtifact,
      herror]
    cases disk.artifactError with
    | none => exact ⟨_, rfl, iff_of_true ⟨_, rfl⟩ ⟨hsame, rfl⟩⟩
    | some error => exact ⟨_, rfl, iff_of_false (by rintro ⟨_, ⟨⟩⟩) (by rintro ⟨-, ⟨⟩⟩)⟩

variable {params : Map} {base : Path} {disk : Disk} {before : Text}
  (hlocation : stringParam params "location" ≠ []) (hold : stringParam params "old" ≠ [])
  (hbefore : disk.Holds (resolvePath (stringParam params "location") base) before)
include hlocation hold hbefore

/-- A replacement in a file that is there succeeds exactly if a scan finds one match, the file
changes and the change can be recorded. -/
theorem exactEdit_iff {disk' : Disk} :
    (∃ result, exactEdit params base disk = (.ok result, disk')) ↔
      (matchIndices (stringParam params "old") before).length = 1 ∧
        before ≠ replaceFirst (stringParam params "old") (stringParam params "new") before ∧
        disk.artifactError = none ∧
        disk' = (disk.put (resolvePath (stringParam params "location") base)
            (Utf8.encode
              (replaceFirst (stringParam params "old") (stringParam params "new") before))).record
          (replacementPatch (resolvePath (stringParam params "location") base).display before
            (replaceFirst (stringParam params "old") (stringParam params "new") before)) := by
  have hread := readUtf8_ok_iff.mpr hbefore
  have hone : ∀ n : ℕ, n = 1 ↔ n ≠ 0 ∧ ¬1 < n := by omega
  obtain ⟨outcome, hfinish, hsucceeds⟩ := finishEdit_eq hbefore
    (replaceFirst (stringParam params "old") (stringParam params "new") before)
    [("operation", .string "exact_replace")]
  by_cases hfound : (matchIndices (stringParam params "old") before).length = 1
  · have hchecked : exactReplacement params base disk =
      .ok (resolvePath (stringParam params "location") base,
        before, replaceFirst (stringParam params "old") (stringParam params "new") before) := by
      simp only [exactReplacement, hread, ok_iff, ok_bind]
      exact ⟨(), hlocation, (), hold, (), ((hone _).mp hfound).1, (), ((hone _).mp hfound).2,
        trivial⟩
    rw [exactEdit, hchecked]
    simp only [hfinish, Prod.mk.injEq, exists_and_right, hsucceeds, hfound, true_and]
    constructor
    · rintro ⟨⟨hne, hrecords⟩, rfl⟩
      exact ⟨hne, hrecords, by rw [if_neg hne, if_pos hrecords]⟩
    · rintro ⟨hne, hrecords, rfl⟩
      exact ⟨⟨hne, hrecords⟩, by rw [if_neg hne, if_pos hrecords]⟩
  · refine iff_of_false ?_ fun h => hfound h.1
    rintro ⟨result, hok⟩
    cases hchecked : exactReplacement params base disk with
    | error error =>
      rw [exactEdit, hchecked] at hok
      cases hok
    | ok found =>
      simp only [exactReplacement, hread, ok_iff, ok_bind] at hchecked
      obtain ⟨_, -, _, -, _, hzero, _, htwo, -⟩ := hchecked
      exact hfound ((hone _).mpr ⟨hzero, htwo⟩)

omit [ContentHash] hlocation hbefore in
/-- What a scan that finds something replaces is the first occurrence. -/
theorem exists_replaceFirst (hfound : ∃ i, OccursAt (stringParam params "old") before i) :
    ∃ left right, before = left ++ stringParam params "old" ++ right ∧
      OccursAt (stringParam params "old") before left.length ∧
      ∀ new, replaceFirst (stringParam params "old") new before = left ++ new ++ right := by
  obtain ⟨left, right, hsplit, hoccurs, hfirst⟩ := exists_first hold hfound
  refine ⟨left, right, hsplit, hoccurs, fun new => ?_⟩
  subst hsplit
  exact replaceFirst_eq new hold hfirst

/-- **A replacement that succeeds is known to have replaced the only occurrence of the text, and
nothing else, exactly if nothing changes, or changes cannot be recorded, or there are two
occurrences that do not overlap, or there is at most one.** -/
theorem exactEdit_exact_iff :
    (∀ result disk', exactEdit params base disk = (.ok result, disk') →
        (∃ after, disk'.Holds (resolvePath (stringParam params "location") base) after ∧
          ReplacesOnly (stringParam params "old") (stringParam params "new") before after) ∧
        ∀ path ≠ resolvePath (stringParam params "location") base,
          disk'.node path = disk.node path) ↔
      stringParam params "new" = stringParam params "old" ∨ disk.artifactError ≠ none ∨
        (∃ i j, OccursAt (stringParam params "old") before i ∧
          OccursAt (stringParam params "old") before j ∧
          i + (stringParam params "old").length ≤ j) ∨
        ∀ i j, OccursAt (stringParam params "old") before i →
          OccursAt (stringParam params "old") before j →
          i = j := by
  constructor
  · intro hexact
    by_cases hnew : stringParam params "new" = stringParam params "old"
    · exact .inl hnew
    by_cases hrecords : disk.artifactError = none
    swap
    · exact .inr (.inl hrecords)
    by_cases htwo : 1 < (matchIndices (stringParam params "old") before).length
    · exact .inr (.inr (.inl ((one_lt_length_matchIndices_iff hold before).mp htwo)))
    -- all occurrences overlap, so the scan finds one and the edit succeeds
    refine .inr (.inr (.inr fun i j hi hj => ?_))
    have hsome : matchIndices (stringParam params "old") before ≠ [] := fun h =>
      (matchIndices_eq_nil_iff hold before).mp h i hi
    have hone : (matchIndices (stringParam params "old") before).length = 1 := by
      have hpos := List.length_pos_iff.mpr hsome
      omega
    obtain ⟨left, right, hsplit, -, hreplace⟩ := exists_replaceFirst hold ⟨i, hi⟩
    have hchanges : before ≠ replaceFirst (stringParam params "old") (stringParam params "new")
        before := by
      rw [hreplace]
      intro h
      rw [h, List.append_assoc, List.append_assoc, List.append_cancel_left_eq,
        List.append_cancel_right_eq] at hsplit
      exact hnew hsplit
    obtain ⟨result, hok⟩ := (exactEdit_iff hlocation hold hbefore).mpr
      ⟨hone, hchanges, hrecords, rfl⟩
    obtain ⟨⟨after, -, left', right', -, -, honly⟩, -⟩ := hexact result _ hok
    rw [(honly i).mp hi, (honly j).mp hj]
  · intro hcases result disk' hok
    obtain ⟨hone, hchanges, hrecords, rfl⟩ := (exactEdit_iff hlocation hold hbefore).mp
      ⟨result, hok⟩
    have hfound : ∃ i, OccursAt (stringParam params "old") before i := by
      by_contra hnone
      have hnil := (matchIndices_eq_nil_iff hold before).mpr (not_exists.mp hnone)
      rw [hnil] at hone
      cases hone
    obtain ⟨left, right, hsplit, hoccurs, hreplace⟩ := exists_replaceFirst hold hfound
    refine ⟨⟨_, Disk.holds_put disk _ _, left, right, hsplit, hreplace _, fun i => ?_⟩,
      fun path hpath => ?_⟩
    · rcases hcases with hnew | hrefused | htwo | honly
      · rw [hnew, hreplace] at hchanges
        exact absurd hsplit hchanges
      · exact absurd hrecords hrefused
      · have hmore := (one_lt_length_matchIndices_iff hold before).mpr htwo
        omega
      · exact ⟨fun hi => honly i _ hi hoccurs, fun hi => hi ▸ hoccurs⟩
    · exact Function.update_of_ne hpath _ _

end Edit

namespace Sample

/-- The length of what is hashed. -/
scoped instance lengths : ContentHash where
  hashBytes bytes := toString bytes.length

/-- The parameters of a replacement. -/
def replacing (old new : String) : Map :=
  [("location", .string "x"), ("old", .string old), ("new", .string new)]

/-- A text with one occurrence is replaced there, and only there. -/
theorem single_replaced :
    (disk "x" "aba").Holds ["x".toList] ['a', 'b', 'a'] ∧
    ∀ result disk', exactEdit (replacing "b" "c") [] (disk "x" "aba") = (.ok result, disk') →
      (∃ after, disk'.Holds ["x".toList] after ∧ ReplacesOnly ['b'] ['c'] ['a', 'b', 'a'] after) ∧
      ∀ path ≠ ["x".toList], disk'.node path = (disk "x" "aba").node path := by
  refine ⟨disk_holds "x" "aba",
    (exactEdit_exact_iff (by decide) (by decide) (disk_holds "x" "aba")).mpr
    (.inr (.inr (.inr ?_)))⟩
  have hbound : ∀ i < 3, OccursAt ['b'] ['a', 'b', 'a'] i → i = 1 := by decide
  have honly {i : ℕ} (hi : OccursAt ['b'] ['a', 'b', 'a'] i) : i = 1 := hbound i (hi.le (by decide))
    hi
  intro i j hi hj
  rw [honly hi, honly hj]

/-- Two occurrences that overlap are taken for one, and the first is replaced. -/
theorem overlapping_replaced :
    ∃ result disk', exactEdit (replacing "aa" "b") [] (disk "x" "aaa") = (.ok result, disk') ∧
      ¬∃ after, disk'.Holds ["x".toList] after ∧
        ReplacesOnly ['a', 'a'] ['b'] ['a', 'a', 'a'] after := by
  have hbefore : (disk "x" "aaa").Holds
      (resolvePath (stringParam (replacing "aa" "b") "location") []) ['a', 'a', 'a'] := disk_holds
        "x" "aaa"
  obtain ⟨result, hok⟩ := (exactEdit_iff (by decide) (by decide) hbefore).mpr
    ⟨by decide, by decide, rfl, rfl⟩
  refine ⟨result, _, hok, ?_⟩
  rintro ⟨after, -, left, right, -, -, honly⟩
  have hzero : 0 = left.length := (honly 0).mp (by decide)
  have hone : 1 = left.length := (honly 1).mp (by decide)
  omega

end Sample

end Zeta.Edit
