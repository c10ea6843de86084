/-
# Here-documents

A shell that reads `command <<'WORD'` gives the command the following lines on its standard input,
as they stand, up to the first line that is `WORD`; without such a line it gives it all of them.
-/
import Picoshift.Lib.Lines

namespace Picoshift.Shell

/-- The here-document of a script whose first line asks for one. -/
def hereDoc (word : List Char) (script : List Char) : List Char :=
  Str.unlinesL ((Str.splitL '\n' script).tail.takeWhile fun l => l != word)

/-- The lines of a script that is a command, some lines and the delimiter. -/
theorem splitL_script {word command : List Char} {ls : List (List Char)} (hword : '\n' ∉ word)
    (hcommand : '\n' ∉ command) (hls : ∀ l ∈ ls, '\n' ∉ l) :
    Str.splitL '\n' (command ++ '\n' :: (Str.unlinesL ls ++ word)) = command :: (ls ++ [word]) := by
  rw [Str.splitL_append hcommand, Str.splitL_unlinesL_append hls hword]

/-- A here-document whose lines are not the delimiter comes through whole. -/
theorem hereDoc_append {word command : List Char} {ls : List (List Char)} (hword : '\n' ∉ word)
    (hcommand : '\n' ∉ command) (hls : ∀ l ∈ ls, '\n' ∉ l ∧ l ≠ word) :
    hereDoc word (command ++ '\n' :: (Str.unlinesL ls ++ word)) = Str.unlinesL ls := by
  have hbody : (ls ++ [word]).takeWhile (fun l => l != word) = ls := by
    rw [List.takeWhile_append_of_pos fun l hl => by simpa using (hls l hl).2]
    simp
  rw [hereDoc, splitL_script hword hcommand fun l hl => (hls l hl).1, List.tail_cons, hbody]

end Picoshift.Shell
