import ZetaRuntime.Library.Lines

/-!
# Texts

What the tools that edit files use of the operations on texts in the standard library: lines, fixed
words at the beginning or the end, splitting at a word, and numbers.
-/

namespace Zeta.Edit

/-- The text of a file, a parameter or a part of one. -/
abbrev Text := List Char

/-- The lines of a text with their line breaks. -/
def ownedLines (text : Text) : List Text := Lines.inclusive '\n' text

/-- A line without its line break, of which a carriage return is a part. -/
def chomp (line : Text) : Text :=
  match line.reverse with
  | '\n' :: '\r' :: body => body.reverse
  | '\n' :: body => body.reverse
  | _ => line

/-- The lines of a text without their line breaks. -/
def lines (text : Text) : List Text := (ownedLines text).map chomp

/-- The text behind a word that it starts with. -/
def stripStart (word text : Text) : Option Text :=
  if word <+: text then some (text.drop word.length) else none

theorem newline_notMem_chomp {line : Text} (h : Lines.Ended '\n' line ∨ Lines.Unended '\n' line) :
    '\n' ∉ chomp line := by
  rcases h with ⟨body, hbody, rfl⟩ | ⟨-, hline⟩
  · have hreverse : (body ++ ['\n']).reverse = '\n' :: body.reverse := by simp
    rw [chomp, hreverse]
    split
    · next rest heq =>
      rw [List.cons.injEq] at heq
      intro hmem
      refine hbody (List.mem_reverse.mp ?_)
      rw [heq.2]
      exact .tail _ (List.mem_reverse.mp hmem)
    · next rest _ heq =>
      rw [List.cons.injEq] at heq
      rw [← heq.2, List.reverse_reverse]
      exact hbody
    · next _ hother => exact absurd rfl (hother _)
  · unfold chomp
    split
    · next rest heq => exact absurd (List.mem_reverse.mp (heq ▸ List.mem_cons_self)) hline
    · next rest _ heq => exact absurd (List.mem_reverse.mp (heq ▸ List.mem_cons_self)) hline
    · exact hline

/-- A line has no line break in it. -/
theorem newline_notMem_lines {text line : Text} (h : line ∈ lines text) : '\n' ∉ line := by
  obtain ⟨owned, howned, rfl⟩ := List.mem_map.mp h
  exact newline_notMem_chomp (Lines.mem_inclusive howned)

end Zeta.Edit
