import Gherkin.Text.Lines
import Gherkin.Text.Replacement

/-!
# Fences around doc strings

A doc string stands between two fences of one kind, three quotation marks or
three backticks.  The line of the opening fence may name a content type; the
closing fence stands alone on its line.  How far the opening fence is indented
says where the content starts: a content line loses that many blanks if it has
them and is left as it is otherwise.  A fence inside the content is written with
a backslash before each of its marks.
-/

namespace Gherkin

/-- The two kinds of fence. -/
inductive Fence where
  | quotes
  | backticks
deriving DecidableEq, Repr

namespace Fence

/-- The character that a fence is made of. -/
def mark : Fence → Char
  | quotes => '"'
  | backticks => '\x60'

/-- The fence as written. -/
def text (fence : Fence) : Text :=
  [fence.mark, fence.mark, fence.mark]

/-- The fence as written inside its own doc string. -/
def escaped (fence : Fence) : Text :=
  ['\\', fence.mark, '\\', fence.mark, '\\', fence.mark]

/-- Writes content so that it contains no fence. -/
def escape (fence : Fence) (line : Text) : Text :=
  line.replaceAll fence.text fence.escaped

/-- Reads escaped fences back. -/
def unescape (fence : Fence) (line : Text) : Text :=
  line.replaceAll fence.escaped fence.text

end Fence

/-- A line that holds a fence: its kind, the number of blanks before it and the
content type behind it. -/
structure FenceLine where
  fence : Fence
  indent : Nat
  contentType? : Option Text
deriving DecidableEq, Repr

namespace FenceLine

/-- The content type that follows an opening fence, if anything does. -/
def contentTypeOf? (rest : Text) : Option Text :=
  let contentType := rest.trim
  if contentType.isEmpty then none else some contentType

/-- Reads a line as an opening fence of the given kind. -/
def openingOf? (fence : Fence) (line : Text) : Option FenceLine :=
  let start := line.trimStart
  if fence.text.isPrefixOf start then
    some ⟨fence, line.indentation, contentTypeOf? (start.drop fence.text.length)⟩
  else
    none

/-- Reads a line as an opening fence. -/
def opening? (line : Text) : Option FenceLine :=
  (openingOf? .quotes line).or (openingOf? .backticks line)

/-- Reads a line as the fence that closes a doc string of the given kind. -/
def closing? (fence : Fence) (line : Text) : Option FenceLine :=
  if line.trim = fence.text then
    some ⟨fence, line.indentation, none⟩
  else
    none

/-- A content line without the indentation of the fence above it.  A line that is
indented less is kept as written. -/
def dedent (indent : Nat) (line : Text) : Text :=
  if indent ≤ line.indentation then line.drop indent else line

/-- What a line below the fence adds to the content. -/
def content (fenceLine : FenceLine) (line : Text) : Text :=
  fenceLine.fence.unescape (dedent fenceLine.indent line)

end FenceLine

end Gherkin
