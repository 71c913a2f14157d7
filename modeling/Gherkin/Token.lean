import Gherkin.Keyword.Table
import Gherkin.Fence

/-!
# Tokens

A token is a line of a document together with what kind of line it is.  Every
line gives exactly one token, so a document with its tokens numbered is still a
list of lines.
-/

namespace Gherkin

/-- What a line holds. -/
inductive LineKind where
  /-- A keyword and the text behind it. -/
  | keyword (line : KeywordLine)
  /-- The tags of a tag line, without their at signs. -/
  | tags (names : List Text)
  /-- The text of a comment. -/
  | comment (text : Text)
  /-- A line that starts with a pipe, trimmed and not yet split into cells. -/
  | tableRow (raw : Text)
  /-- A fence that opens or closes a doc string. -/
  | fence (line : FenceLine)
  /-- A line inside a doc string, verbatim. -/
  | content (line : Text)
  /-- Any other line that is not blank, trimmed. -/
  | text (text : Text)
  /-- A line of white space. -/
  | blank
deriving DecidableEq, Repr

/-- A line with its number, counted from one. -/
structure Token where
  line : Nat
  kind : LineKind
deriving DecidableEq, Repr

namespace LineKind

/-- Splits at white space. -/
def words (text : Text) : List Text :=
  (text.splitOnP isWhite).filter fun word => !word.isEmpty

/-- The tags of a line: its words up to the first that starts with a number sign,
each without its at sign.  An at sign alone names nothing. -/
def tagNames (line : Text) : List Text :=
  let named := (words line).takeWhile fun word => word.head? != some '#'
  (named.map Text.trimTag).filter fun name => !name.isEmpty

/-- The kind of a line outside doc strings.  A keyword takes precedence, so a
table may even register a literal that starts like a comment or a tag. -/
def ofLine (keywords : KeywordTable) (line : Text) : LineKind :=
  let trimmed := line.trim
  match keywords.readLine? trimmed with
  | some keywordLine => keyword keywordLine
  | none =>
      match trimmed with
      | '@' :: _ => tags (tagNames trimmed)
      | '#' :: _ => comment trimmed.trimComment
      | '|' :: _ => tableRow trimmed
      | _ =>
          match FenceLine.opening? line with
          | some fenceLine => fence fenceLine
          | none => if trimmed.isEmpty then blank else text trimmed

/-- The kind of a line inside a doc string: its own fence, or content. -/
def ofContentLine (fence : Fence) (line : Text) : LineKind :=
  match FenceLine.closing? fence line with
  | some fenceLine => .fence fenceLine
  | none => content line

end LineKind

end Gherkin
