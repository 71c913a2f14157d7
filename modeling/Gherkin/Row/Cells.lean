import Gherkin.Text.Blank

/-!
# Cells of a table row

A row is written as cells between pipes.  Inside a cell a backslash turns a pipe
into content, itself into content, and the letter `n` into a line feed; before
any other character it is an ordinary character.  Escapes are resolved before the
blanks around a cell are trimmed.  None of the characters an escape stands for is
a blank, so the order does not matter for the result, but it keeps an escaped
pipe at the edge of its cell.
-/

namespace Gherkin

/-- Why a line is no table row. -/
inductive RowFault where
  | noOpeningPipe
  | noClosingPipe
  | noCells
deriving DecidableEq, Repr

def RowFault.reason : RowFault → String
  | noOpeningPipe => "row must start with '|'"
  | noClosingPipe => "missing closing '|'"
  | noCells => "row has no cells"

namespace Cells

/-- Puts a character in front of the first piece. -/
def push (c : Char) : List Text → List Text
  | [] => [[c]]
  | piece :: pieces => (c :: piece) :: pieces

/-- The pieces between the pipes that no backslash escapes, with their escapes
resolved.  There is one piece more than there are such pipes. -/
def split : Text → List Text
  | [] => [[]]
  | '|' :: rest => [] :: split rest
  | '\\' :: '|' :: rest => push '|' (split rest)
  | '\\' :: '\\' :: rest => push '\\' (split rest)
  | '\\' :: 'n' :: rest => push '\n' (split rest)
  | c :: rest => push c (split rest)

/-- The cells of a row.  What follows the last pipe has to be blank. -/
def decode (raw : Text) : Except RowFault (List Text) :=
  match raw.trimBlanks with
  | '|' :: body =>
      let pieces := (split body).map Text.trimBlanks
      if pieces.getLast?.any fun leftover => !leftover.isEmpty then
        .error .noClosingPipe
      else if pieces.dropLast.isEmpty then
        .error .noCells
      else
        .ok pieces.dropLast
  | _ => .error .noOpeningPipe

/-- A cell with its backslashes, pipes and line feeds escaped. -/
def escape : Text → Text
  | [] => []
  | '\\' :: rest => '\\' :: '\\' :: escape rest
  | '|' :: rest => '\\' :: '|' :: escape rest
  | '\n' :: rest => '\\' :: 'n' :: escape rest
  | c :: rest => c :: escape rest

/-- A row that holds the cells, each with a space on either side. -/
def encode (cells : List Text) : Text :=
  '|' :: cells.flatMap fun cell => ' ' :: escape cell ++ [' ', '|']

end Cells

end Gherkin
