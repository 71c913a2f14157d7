import Gherkin.Document
import Gherkin.Row.Cells

/-!
# Writing a document

A document has a canonical written form, which leaves out what the tree does not
hold: indentation, blank lines and where a step had its doc strings among its
rows.  Comments and tags stand directly above their node, descriptions directly
below the line they describe, and the doc strings of a step above its rows.  What
would be read as something else is escaped: fences inside doc strings, and
backslashes, pipes and line feeds inside cells.
-/

namespace Gherkin

def commentLine (comment : Text) : Text :=
  '#' :: ' ' :: comment

def tagLine (tags : List Text) : Text :=
  [' '].intercalate (tags.map fun tag => '@' :: tag)

/-- The line that opens a structural node. -/
def structuralLine (keyword name : Text) : Text :=
  keyword ++ ':' :: ' ' :: name

/-- The lines above a node: its comments, and its tags if it has any. -/
def Node.lines (node : Node) : List Text :=
  node.comments.map commentLine ++
    (if node.tags.isEmpty then [] else [tagLine node.tags])

/-- The lines of a text that may be empty, and then has none. -/
def Text.linesOf (text : Text) : List Text :=
  if text.isEmpty then [] else text.splitOnP (· == '\n')

def Row.lines (row : Row) : List Text :=
  row.toNode.lines ++ [Cells.encode row.cells]

/-- A doc string between its fences, without indentation. -/
def DocString.lines (doc : DocString) : List Text :=
  (doc.fence.text ++ doc.contentType?.getD []) ::
    (doc.content.linesOf.map doc.fence.escape ++ [doc.fence.text])

/-- A step with its doc strings and then its rows. -/
def Step.lines (step : Step) : List Text :=
  step.toNode.lines ++ step.text ::
    (step.docs.flatMap DocString.lines ++ step.rows.flatMap Row.lines)

/-- A group of examples with its rows. -/
def Examples.lines (group : Examples) : List Text :=
  group.toNode.lines ++ structuralLine group.keyword group.name ::
    (group.description.linesOf ++ group.rows.flatMap Row.lines)

/-- A container with its steps and then its groups of examples. -/
def Container.lines (container : Container) : List Text :=
  container.toNode.lines ++ structuralLine container.keyword container.name ::
    (container.description.linesOf ++ container.steps.flatMap Step.lines
      ++ container.groups.flatMap Examples.lines)

/-- A document with its trailing comments at the end. -/
def Feature.lines (feature : Feature) : List Text :=
  feature.toNode.lines ++ structuralLine feature.keyword feature.name ::
    (feature.description.linesOf ++ feature.containers.flatMap Container.lines
      ++ feature.trailingComments.map commentLine)

/-- The written form of a document.  Every line ends in a carriage return and a
line feed. -/
def Feature.render (feature : Feature) : Text :=
  feature.lines.flatMap fun line => line ++ ['\r', '\n']

end Gherkin
