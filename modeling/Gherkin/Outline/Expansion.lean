import Gherkin.Document
import Gherkin.Outline.Placeholder

/-!
# Expanding outlines

An outline is a template.  Each data row of each of its groups of examples gives
one concrete scenario, in which every placeholder is replaced by the cell of the
row that stands below the header of that name.  What is put in is not searched
for placeholders again.  A placeholder without a column is an error, which names
the first one in the order in which a step is filled in: its doc strings, then
its rows, then its name, and the name of the outline after all steps.
-/

namespace Gherkin

/-- The columns of a group of examples at one data row. -/
structure Columns where
  headers : List Text
  values : List Text
deriving DecidableEq, Repr

/-- A placeholder names no column. -/
structure PlaceholderFault where
  placeholder : Text
  availableColumns : List Text
  line : Nat
deriving DecidableEq, Repr

def PlaceholderFault.message (fault : PlaceholderFault) : String :=
  let columns := ", ".intercalate (fault.availableColumns.map String.ofList)
  "line " ++ toString fault.line ++ ": placeholder `<"
    ++ String.ofList fault.placeholder
    ++ ">` names no Examples column; available columns: [" ++ columns ++ "]"

namespace Columns

/-- The value below the first header of that name. -/
def value? (columns : Columns) (name : Text) : Option Text :=
  (columns.headers.zip columns.values).lookup name

/-- What a piece of a template at the given line stands for. -/
def fillPiece (columns : Columns) (line : Nat) :
    Piece → Except PlaceholderFault Text
  | .char c => .ok [c]
  | .placeholder name =>
      match columns.value? name with
      | some value => .ok value
      | none => .error ⟨name, columns.headers, line⟩

/-- Fills in pieces from the left, up to the first that has no value. -/
def fillPieces (columns : Columns) (line : Nat) :
    List Piece → Except PlaceholderFault Text
  | [] => .ok []
  | piece :: pieces => do
      let front ← columns.fillPiece line piece
      let back ← columns.fillPieces line pieces
      return front ++ back

/-- Fills in a template at the given line. -/
def substitute (columns : Columns) (line : Nat) (template : Text) :
    Except PlaceholderFault Text :=
  columns.fillPieces line template.pieces

def fillDoc (columns : Columns) (doc : DocString) :
    Except PlaceholderFault DocString := do
  let content ← columns.substitute doc.line doc.content
  return { doc with content := content }

def fillRow (columns : Columns) (row : Row) : Except PlaceholderFault Row := do
  let cells ← row.cells.mapM (columns.substitute row.line)
  return { row with cells := cells }

/-- Fills in a step: its doc strings, its rows and its name. -/
def fillStep (columns : Columns) (step : Step) : Except PlaceholderFault Step := do
  let docs ← step.docs.mapM columns.fillDoc
  let rows ← step.rows.mapM columns.fillRow
  let name ← columns.substitute step.line step.name
  return { step with docs := docs, rows := rows, name := name }

end Columns

/-- A scenario that an outline and one data row give. -/
structure ConcreteScenario where
  outline : Container
  group : Examples
  row : Row
  name : Text
  steps : List Step
deriving DecidableEq, Repr

/-- The line of the data row tells the scenarios of an outline apart. -/
def ConcreteScenario.line (scenario : ConcreteScenario) : Nat :=
  scenario.row.line

namespace Container

/-- The scenario of one data row below the given header. -/
def expandRow (outline : Container) (group : Examples) (header row : Row) :
    Except PlaceholderFault ConcreteScenario := do
  let columns : Columns := ⟨header.cells, row.cells⟩
  let steps ← outline.steps.mapM columns.fillStep
  let name ← columns.substitute outline.line outline.name
  return { outline := outline, group := group, row := row, name := name,
           steps := steps }

/-- The scenarios of one group.  A group without a header has none. -/
def expandGroup (outline : Container) (group : Examples) :
    Except PlaceholderFault (List ConcreteScenario) :=
  match group.header? with
  | none => .ok []
  | some header => group.dataRows.mapM (outline.expandRow group header)

/-- The scenarios of all groups, in order.  Only an outline has any. -/
def expand (container : Container) :
    Except PlaceholderFault (List ConcreteScenario) := do
  let scenarios ← container.groups.mapM container.expandGroup
  return scenarios.flatten

end Container

end Gherkin
