import Gherkin.Fence
import Gherkin.Keyword

/-!
# The document tree

A feature holds containers of steps: at most one background, then scenarios and
outlines.  A step may carry doc strings and the rows of a table, and an outline
ends in groups of examples.  Every one of these but the doc string is a *node*:
it knows the address of its document, the line that opened it, and the comments
and tags written above it.  Tags belong to the node they are written above and
are never inherited.
-/

namespace Gherkin

/-- What every node of a document has. -/
structure Node where
  uri : Text
  line : Nat
  comments : List Text
  tags : List Text
deriving DecidableEq, Repr

/-- Whether the node carries the tag, which may be asked for with its at sign. -/
def Node.hasTag (node : Node) (tag : Text) : Bool :=
  node.tags.contains tag.trimTag

/-- A row of a table. -/
structure Row extends Node where
  cells : List Text
deriving DecidableEq, Repr

/-- The content of a doc string and the fence it was written in. -/
structure DocString where
  line : Nat
  fence : Fence
  contentType? : Option Text
  content : Text
deriving DecidableEq, Repr

/-- A step with its doc strings and the rows of its table. -/
structure Step extends Node where
  keyword : Text
  kind : StepKeyword
  name : Text
  docs : List DocString
  rows : List Row
deriving DecidableEq, Repr

namespace Step

/-- The step as written: its keyword and its name, if it has one. -/
def text (step : Step) : Text :=
  if step.name.isEmpty then step.keyword else step.keyword ++ ' ' :: step.name

def docString? (step : Step) : Option DocString :=
  step.docs.head?

/-- The cells of all rows. -/
def table (step : Step) : List (List Text) :=
  step.rows.map Row.cells

end Step

/-- A group of examples: a header row that names the columns, and data rows. -/
structure Examples extends Node where
  keyword : Text
  name : Text
  description : Text
  rows : List Row
deriving DecidableEq, Repr

namespace Examples

def header? (group : Examples) : Option Row :=
  group.rows.head?

def dataRows (group : Examples) : List Row :=
  group.rows.tail

end Examples

/-- The three kinds of container.  Only an outline has examples. -/
inductive ContainerKind where
  | background
  | scenario
  | outline (groups : List Examples)
deriving DecidableEq, Repr

/-- A background, a scenario or an outline with its steps. -/
structure Container extends Node where
  kind : ContainerKind
  keyword : Text
  name : Text
  description : Text
  steps : List Step
deriving DecidableEq, Repr

namespace Container

def isBackground (container : Container) : Bool :=
  match container.kind with
  | .background => true
  | _ => false

def isOutline (container : Container) : Bool :=
  match container.kind with
  | .outline _ => true
  | _ => false

/-- The groups of examples, of which only an outline has any. -/
def groups (container : Container) : List Examples :=
  match container.kind with
  | .outline groups => groups
  | _ => []

/-- The rows of all groups, headers included. -/
def exampleRows (container : Container) : List Row :=
  container.groups.flatMap Examples.rows

/-- The kinds of the steps, with continuations resolved. -/
def resolvedKinds (container : Container) : List StepKeyword :=
  StepKeyword.resolveAll none (container.steps.map Step.kind)

end Container

/-- A whole document: one feature and all that is written below it. -/
structure Feature extends Node where
  keyword : Text
  name : Text
  description : Text
  backgrounds : List Container
  scenarios : List Container
  trailingComments : List Text
deriving DecidableEq, Repr

namespace Feature

def background? (feature : Feature) : Option Container :=
  feature.backgrounds.head?

def outlines (feature : Feature) : List Container :=
  feature.scenarios.filter Container.isOutline

/-- The background and the scenarios, in the order of the document. -/
def containers (feature : Feature) : List Container :=
  feature.backgrounds ++ feature.scenarios

end Feature

end Gherkin
