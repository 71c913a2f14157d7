import Gherkin.Text.Blank

/-!
# Diagnostics

A document that cannot be read is answered with one diagnostic: the line where
the reading stopped and the cause.  The cause carries what a reader needs to find
the place, such as the line of the doc string that was never closed.  Its wording
is a function of the cause, and comes bare, with the line, or with the address of
the document as editors print it.
-/

namespace Gherkin

/-- Why a document is not accepted. -/
inductive Cause where
  /-- Content stands where the document should begin with a feature. -/
  | missingFeature
  /-- The doc string opened at line `openedAt` is not closed by its own fence. -/
  | unterminatedDocString (openedAt : Nat)
  /-- The document ends inside `context`. -/
  | unexpectedEnd (context : String)
  /-- A line that starts with a pipe is no table row. -/
  | malformedRow (reason : String)
  /-- A row has `found` cells in a table whose first row, at line `firstLine`, has
  `expected`. -/
  | inconsistentWidth (expected found firstLine : Nat)
  /-- A keyword stands where its construct may not. -/
  | misplacedKeyword (keyword : Text) (context : String)
  /-- Content stands where nothing can own it. -/
  | unexpectedContent (found context : String)
deriving DecidableEq, Repr

/-- The wording of a cause, which names no place. -/
def Cause.message : Cause → String
  | missingFeature => "expected a Feature keyword before any other content"
  | unterminatedDocString openedAt =>
      "doc string opened at line " ++ toString openedAt ++ " is never closed"
  | unexpectedEnd context => "unexpected end of input inside " ++ context
  | malformedRow reason => "malformed table row: " ++ reason
  | inconsistentWidth expected found firstLine =>
      "table row has " ++ toString found ++ " cells but the row at line "
        ++ toString firstLine ++ " has " ++ toString expected
  | misplacedKeyword keyword context =>
      "keyword `" ++ String.ofList keyword ++ "` is not allowed " ++ context
  | unexpectedContent found context => "unexpected " ++ found ++ " " ++ context

/-- A cause and the line it was found at. -/
structure Diagnostic where
  line : Nat
  cause : Cause
deriving DecidableEq, Repr

namespace Diagnostic

def message (diagnostic : Diagnostic) : String :=
  diagnostic.cause.message

/-- The wording with the line. -/
def display (diagnostic : Diagnostic) : String :=
  "line " ++ toString diagnostic.line ++ ": " ++ diagnostic.message

/-- The wording with the address of the document and the line. -/
def located (diagnostic : Diagnostic) (uri : Text) : String :=
  String.ofList uri ++ ":" ++ toString diagnostic.line ++ ": " ++ diagnostic.message

end Diagnostic

end Gherkin
