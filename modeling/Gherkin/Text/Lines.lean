import Gherkin.Text.Blank

/-!
# Physical lines

A document is read line by line.  A line ends with a line feed, and a carriage
return directly before the end of a line belongs to the ending and not to the
line, also on a last line that no line feed ends.  A byte order mark in front of
the document is no part of its first line.  A document that ends in a line feed
has no further line behind it, so the number of lines is the number of line
feeds plus one for an unterminated remainder.
-/

namespace Gherkin.Text

/-- The document without a byte order mark in front. -/
def dropByteOrderMark : Text → Text
  | '\uFEFF' :: text => text
  | text => text

/-- The pieces that line feeds end, without the line feeds, and the remainder
behind the last one unless it is empty. -/
def splitLines : Text → List Text
  | [] => []
  | c :: rest =>
      if c = '\n' then
        [] :: splitLines rest
      else
        match splitLines rest with
        | [] => [[c]]
        | line :: lines => (c :: line) :: lines

/-- A line without the carriage return at its end, if it has one. -/
def dropReturn (line : Text) : Text :=
  if line.getLast? = some '\r' then line.dropLast else line

/-- The lines of a document, without their endings. -/
def lines (document : Text) : List Text :=
  document.dropByteOrderMark.splitLines.map dropReturn

/-- Lines joined by single line feeds. -/
def joinLines (lines : List Text) : Text :=
  ['\n'].intercalate lines

/-- A text with one more line at its end. -/
def addLine (text line : Text) : Text :=
  if text.isEmpty then line else text ++ '\n' :: line

@[simp]
theorem splitLines_nil : splitLines [] = [] := rfl

@[simp]
theorem splitLines_lineFeed (rest : Text) :
    splitLines ('\n' :: rest) = [] :: splitLines rest := by
  simp [splitLines]

/-- A line with its line feed comes off the front as it stands. -/
theorem splitLines_line {line : Text} (hline : '\n' ∉ line) (rest : Text) :
    splitLines (line ++ '\n' :: rest) = line :: splitLines rest := by
  induction line with
  | nil => simp
  | cons c line ih =>
      have hc : c ≠ '\n' := fun heq => hline (heq ▸ List.mem_cons_self)
      have hrest : '\n' ∉ line := fun hmem => hline (List.mem_cons_of_mem _ hmem)
      simp [splitLines, hc, ih hrest]

end Gherkin.Text
