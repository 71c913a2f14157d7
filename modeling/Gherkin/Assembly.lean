import Gherkin.Config
import Gherkin.Diagnostic
import Gherkin.Document

/-!
# Documents under construction

A document is assembled from its tokens in one pass.  What may come next depends
on the *phase*: nothing has been opened yet, the feature is open, a container is
open, or a group of examples is open.  Each phase holds exactly the constructs
that are open in it, the outer ones complete up to the inner one, so a step
without a container or a group without an outline above it has no place to be.
Comments and tags wait until a node comes that can own them.
-/

namespace Gherkin

/-- Comments and tags that no node owns yet. -/
structure Pending where
  comments : List Text := []
  tags : List Text := []
deriving DecidableEq, Repr

/-- A doc string whose closing fence has not come yet. -/
structure OpenDoc where
  line : Nat
  opening : FenceLine
  contents : List Text := []
deriving DecidableEq, Repr

namespace OpenDoc

/-- Takes one more line of the document as content. -/
def push (doc : OpenDoc) (line : Text) : OpenDoc :=
  { doc with contents := doc.contents ++ [doc.opening.content line] }

/-- The doc string that its lines add up to. -/
def close (doc : OpenDoc) : DocString where
  line := doc.line
  fence := doc.opening.fence
  contentType? := doc.opening.contentType?
  content := Text.joinLines doc.contents

end OpenDoc

/-- What the open step is taking in.  The rows of a table stay comparable to the
first row of their run; a doc string ends the run. -/
inductive Slot where
  | idle
  | table (first : Row)
  | doc (doc : OpenDoc)
deriving DecidableEq, Repr

/-- The row that fixes the width of the rows to come. -/
def Slot.first? : Slot → Option Row
  | table first => some first
  | _ => none

/-- A step that still takes rows and doc strings. -/
structure OpenStep where
  step : Step
  slot : Slot := .idle
deriving DecidableEq, Repr

/-- The constructs that are open, from the outermost to the innermost. -/
inductive Phase where
  | awaiting
  | header (feature : Feature)
  | body (feature : Feature) (container : Container) (open? : Option OpenStep)
  | examples (feature : Feature) (container : Container) (group : Examples)
deriving DecidableEq, Repr

/-- A document under construction: its address, the policy for comments at its
end, what is pending, the line of the last token and the phase. -/
structure Assembly where
  uri : Text
  policy : TrailingComments
  pending : Pending
  lastLine : Nat
  phase : Phase
deriving DecidableEq, Repr

/-! ## Putting finished constructs into place -/

namespace Container

/-- The container with the open step, if there is one, at its end. -/
def addStep (container : Container) : Option OpenStep → Container
  | some openStep => { container with steps := container.steps ++ [openStep.step] }
  | none => container

/-- The outline with a group of examples at its end. -/
def addGroup (container : Container) (group : Examples) : Container :=
  match container.kind with
  | .outline groups => { container with kind := .outline (groups ++ [group]) }
  | _ => container

end Container

/-- The feature with a container at the end of the list it belongs to. -/
def Feature.addContainer (feature : Feature) (container : Container) : Feature :=
  if container.isBackground then
    { feature with backgrounds := feature.backgrounds ++ [container] }
  else
    { feature with scenarios := feature.scenarios ++ [container] }

namespace Phase

/-- The feature with everything that is open put into place. -/
def feature? : Phase → Option Feature
  | awaiting => none
  | header feature => some feature
  | body feature container open? =>
      some (feature.addContainer (container.addStep open?))
  | examples feature container group =>
      some (feature.addContainer (container.addGroup group))

/-- The doc string that is open. -/
def doc? : Phase → Option OpenDoc
  | body _ _ (some ⟨_, .doc doc⟩) => some doc
  | _ => none

end Phase

namespace Assembly

/-- The assembly that has seen nothing of the document. -/
def start (uri : Text) (policy : TrailingComments) : Assembly where
  uri := uri
  policy := policy
  pending := {}
  lastLine := 0
  phase := .awaiting

/-- The node that a construct at this line would have. -/
def node (assembly : Assembly) (line : Nat) : Node where
  uri := assembly.uri
  line := line
  comments := assembly.pending.comments
  tags := assembly.pending.tags

/-- The assembly in a phase whose newest node owns what was pending. -/
def enter (assembly : Assembly) (phase : Phase) : Assembly :=
  { assembly with phase := phase, pending := {} }

/-- The assembly in a phase that leaves what is pending. -/
def stay (assembly : Assembly) (phase : Phase) : Assembly :=
  { assembly with phase := phase }

/-- The finished document.  Its last line stands in for the place of what is
missing at its end. -/
def finish (assembly : Assembly) : Except Diagnostic Feature :=
  let last := max assembly.lastLine 1
  match assembly.phase.doc?, assembly.phase.feature? with
  | some _, _ => .error ⟨last, .unexpectedEnd "a doc string"⟩
  | none, none => .error ⟨last, .missingFeature⟩
  | none, some feature =>
      match assembly.policy with
      | .attach => .ok { feature with trailingComments := assembly.pending.comments }
      | .discard => .ok feature

end Assembly

end Gherkin
