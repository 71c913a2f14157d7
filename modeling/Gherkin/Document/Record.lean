import Gherkin.Document

/-!
# Documents as records

A document is handed to other programs as nested records with named fields.  A
record keeps its fields in the order of the document's own, a kind without
content is its name, and a kind with content is a record of one field.
-/

namespace Gherkin

/-- Data with no types but these. -/
inductive Record where
  | null
  | number (value : Nat)
  | text (value : Text)
  | list (items : List Record)
  | fields (entries : List (String × Record))

namespace Record

def ofName (name : String) : Record :=
  text name.toList

def texts (values : List Text) : Record :=
  list (values.map text)

/-- A text that may be missing. -/
def text? : Option Text → Record
  | some value => text value
  | none => null

end Record

/-- A role is its name, and that of a step names its keyword. -/
def Role.record : Role → Record
  | step keyword => .fields [("Step", .ofName keyword.name)]
  | role => .ofName role.name

def Fence.record : Fence → Record
  | quotes => .ofName "Quotes"
  | backticks => .ofName "Backticks"

/-- A node is one record inside that of its construct. -/
def Node.record (node : Node) : Record :=
  .fields
    [("uri", .text node.uri),
      ("line", .number node.line),
      ("comments", .texts node.comments),
      ("tags", .texts node.tags)]

def Row.record (row : Row) : Record :=
  .fields [("meta", row.toNode.record), ("cells", .texts row.cells)]

def DocString.record (doc : DocString) : Record :=
  .fields
    [("line", .number doc.line),
      ("fence", doc.fence.record),
      ("content_type", .text? doc.contentType?),
      ("content", .text doc.content)]

def Step.record (step : Step) : Record :=
  .fields
    [("meta", step.toNode.record),
      ("keyword", .text step.keyword),
      ("kind", .ofName step.kind.name),
      ("name", .text step.name),
      ("docs", .list (step.docs.map DocString.record)),
      ("rows", .list (step.rows.map Row.record))]

def Examples.record (group : Examples) : Record :=
  .fields
    [("meta", group.toNode.record),
      ("keyword", .text group.keyword),
      ("name", .text group.name),
      ("description", .text group.description),
      ("rows", .list (group.rows.map Row.record))]

/-- A kind of container, which holds the examples of an outline. -/
def ContainerKind.record : ContainerKind → Record
  | background => .ofName "Background"
  | scenario => .ofName "Scenario"
  | outline groups =>
      .fields [("Outline", .fields [("examples", .list (groups.map Examples.record))])]

def Container.record (container : Container) : Record :=
  .fields
    [("meta", container.toNode.record),
      ("kind", container.kind.record),
      ("keyword", .text container.keyword),
      ("name", .text container.name),
      ("description", .text container.description),
      ("steps", .list (container.steps.map Step.record))]

def Feature.record (feature : Feature) : Record :=
  .fields
    [("meta", feature.toNode.record),
      ("keyword", .text feature.keyword),
      ("name", .text feature.name),
      ("description", .text feature.description),
      ("backgrounds", .list (feature.backgrounds.map Container.record)),
      ("scenarios", .list (feature.scenarios.map Container.record)),
      ("trailing_comments", .texts feature.trailingComments)]

end Gherkin
