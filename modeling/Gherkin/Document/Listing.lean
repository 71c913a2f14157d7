import Gherkin.Document

/-!
# Listing the nodes of a document

The nodes of a document have an order: the feature, then every container with its
steps and its groups of examples, each step and each group followed by its rows.
On a document that was read it is the order of their lines.
-/

namespace Gherkin

/-- A construct that is a node. -/
inductive Construct where
  | feature (feature : Feature)
  | container (container : Container)
  | step (step : Step)
  | examples (group : Examples)
  | row (row : Row)
deriving DecidableEq, Repr

def Construct.node : Construct → Node
  | feature root => root.toNode
  | container parent => parent.toNode
  | step leaf => leaf.toNode
  | examples group => group.toNode
  | row entry => entry.toNode

def Step.listing (step : Step) : List Construct :=
  .step step :: step.rows.map .row

def Examples.listing (group : Examples) : List Construct :=
  .examples group :: group.rows.map .row

def Container.listing (container : Container) : List Construct :=
  .container container ::
    (container.steps.flatMap Step.listing ++ container.groups.flatMap Examples.listing)

def Feature.listing (feature : Feature) : List Construct :=
  .feature feature :: feature.containers.flatMap Container.listing

end Gherkin
