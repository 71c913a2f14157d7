import Gherkin.Keyword.Table

/-!
# How a document is read

Two things are open to choice: the keyword table, and what becomes of comments
that stand behind the last construct of the document, where no node can own them.
-/

namespace Gherkin

/-- What becomes of the comments behind the last construct. -/
inductive TrailingComments where
  /-- The feature keeps them. -/
  | attach
  /-- They are dropped. -/
  | discard
deriving DecidableEq, Repr

/-- The choices for one read. -/
structure Config where
  keywords : KeywordTable := .english
  trailingComments : TrailingComments := .attach
deriving DecidableEq, Repr

/-- A fresh configuration that reads with the same keyword table. -/
def Config.shareKeywords (config : Config) : Config :=
  { keywords := config.keywords }

end Gherkin
