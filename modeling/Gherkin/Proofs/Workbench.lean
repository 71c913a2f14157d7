import Gherkin.Proofs.Assembly.Move

/-!
# Workbenches

The phases of an assembly leave no room for a step without a container or for a table
without a step.  A workbench assembles the same documents without them: it knows the
stage it has reached and has one slot for each construct that may be open, to be filled
and emptied one by one.  A construct that is closed is handed over to the slot of its
parent.  Where that slot is empty there is nobody to take it, and it is lost.  A
workbench keeps an account of what it has lost.
-/

namespace Gherkin

/-- The innermost construct that has been opened, steps and doc strings apart. -/
inductive Stage where
  | awaiting
  | feature
  | container
  | examples
deriving DecidableEq, Repr

/-- A table that still takes rows, with the width and the line of its first row. -/
structure TableDraft where
  rows : List Row := []
  first? : Option (Nat × Nat) := none
deriving DecidableEq, Repr

/-- Takes a row that is as wide as the first. -/
def TableDraft.push (draft : TableDraft) (row : Row) : Except Cause TableDraft :=
  let rows := draft.rows ++ [row]
  match draft.first? with
  | none => .ok ⟨rows, some (row.cells.length, row.line)⟩
  | some (expected, firstLine) =>
      if expected = row.cells.length then
        .ok { draft with rows := rows }
      else
        .error (.inconsistentWidth expected row.cells.length firstLine)

/-- What is lost if the slot it belongs to is empty. -/
inductive Loss where
  | line (kind : LineKind)
  | row (row : Row)
  | table (rows : List Row)
  | doc (doc : DocString)
  | step (step : Step)
  | group (group : Examples)
  | container (container : Container)
deriving DecidableEq, Repr

/-- The stage and the slots, and what has been lost so far. -/
structure Slots where
  stage : Stage := .awaiting
  feature? : Option Feature := none
  container? : Option Container := none
  step? : Option Step := none
  table? : Option TableDraft := none
  examples? : Option (Examples × TableDraft) := none
  doc? : Option OpenDoc := none
  lost : List Loss := []
deriving DecidableEq, Repr

namespace Slots

/-- Enters a loss into the account. -/
def lose (slots : Slots) (loss : Loss) : Slots :=
  { slots with lost := slots.lost ++ [loss] }

def withTable (slots : Slots) (draft : TableDraft) : Slots :=
  { slots with table? := some draft }

def withGroup (slots : Slots) (group : Examples) (draft : TableDraft) : Slots :=
  { slots with examples? := some (group, draft) }

/-- Hands the rows of the table over to the step. -/
def flushTable (slots : Slots) : Slots :=
  match slots.table? with
  | none => slots
  | some draft =>
      let slots := { slots with table? := none }
      match slots.step? with
      | none => slots.lose (.table draft.rows)
      | some step =>
          { slots with step? := some { step with rows := step.rows ++ draft.rows } }

/-- Hands the step over to the container. -/
def closeStep (slots : Slots) : Slots :=
  let slots := slots.flushTable
  match slots.step? with
  | none => slots
  | some step =>
      let slots := { slots with step? := none }
      match slots.container? with
      | none => slots.lose (.step step)
      | some container =>
          let steps := container.steps ++ [step]
          { slots with container? := some { container with steps := steps } }

/-- Hands the group of examples over to the container, which has to be an outline. -/
def closeExamples (slots : Slots) : Slots :=
  match slots.examples? with
  | none => slots
  | some (group, draft) =>
      let slots := { slots with examples? := none }
      let group := { group with rows := draft.rows }
      match slots.container? with
      | none => slots.lose (.group group)
      | some container =>
          if container.isOutline then
            { slots with container? := some (container.addGroup group) }
          else
            slots.lose (.group group)

/-- Hands the container over to the feature, with all that is open in it. -/
def closeContainer (slots : Slots) : Slots :=
  let slots := slots.closeStep.closeExamples
  match slots.container? with
  | none => slots
  | some container =>
      let slots := { slots with container? := none }
      match slots.feature? with
      | none => slots.lose (.container container)
      | some feature =>
          { slots with feature? := some (feature.addContainer container) }

end Slots

/-- A document under construction in slots. -/
structure Workbench where
  uri : Text
  policy : TrailingComments
  pending : Pending := {}
  lastLine : Nat := 0
  slots : Slots := {}
deriving DecidableEq, Repr

namespace Workbench

/-- The workbench that has seen nothing of the document. -/
def start (uri : Text) (policy : TrailingComments) : Workbench where
  uri := uri
  policy := policy

/-- The node that a construct at this line would have. -/
def node (bench : Workbench) (line : Nat) : Node where
  uri := bench.uri
  line := line
  comments := bench.pending.comments
  tags := bench.pending.tags

/-- What a token comes to: the workbench behind it, and what is wrong with it. -/
abbrev Result := Workbench × Option Diagnostic

/-- Accepts a line that leaves what is pending. -/
def stay (bench : Workbench) (slots : Slots) : Result :=
  ({ bench with slots := slots }, none)

/-- Accepts a line whose node takes what is pending. -/
def enter (bench : Workbench) (slots : Slots) : Result :=
  ({ bench with slots := slots, pending := {} }, none)

def reject (bench : Workbench) (line : Nat) (cause : Cause) : Result :=
  (bench, some ⟨line, cause⟩)

def openFeature (bench : Workbench) (line : Nat) (opening : KeywordLine) : Result :=
  let feature := opening.feature (bench.node line)
  bench.enter { bench.slots with stage := .feature, feature? := some feature }

def openContainer (bench : Workbench) (line : Nat) (opening : KeywordLine)
    (kind : ContainerKind) : Result :=
  let container := opening.container (bench.node line) kind
  bench.enter
    { bench.slots.closeContainer with
      stage := .container, container? := some container }

def openStep (bench : Workbench) (line : Nat) (opening : KeywordLine)
    (kind : StepKeyword) : Result :=
  let step := opening.step (bench.node line) kind
  bench.enter { bench.slots.closeStep with step? := some step }

def openExamples (bench : Workbench) (line : Nat) (opening : KeywordLine) : Result :=
  if bench.slots.container?.any Container.isOutline then
    let group := opening.examples (bench.node line)
    bench.enter
      { bench.slots.closeStep.closeExamples with
        stage := .examples, examples? := some (group, {}) }
  else
    bench.reject line (.misplacedKeyword opening.keyword "outside a Scenario Outline")

def feedKeyword (bench : Workbench) (line : Nat) (opening : KeywordLine) : Result :=
  let misplaced context :=
    bench.reject line (.misplacedKeyword opening.keyword context)
  match bench.slots.stage, opening.role with
  | .awaiting, .feature => bench.openFeature line opening
  | .awaiting, _ => bench.reject line .missingFeature
  | _, .feature => misplaced "more than once per document"
  | .feature, .background => bench.openContainer line opening .background
  | _, .background => misplaced "after a Background or Scenario"
  | _, .scenario => bench.openContainer line opening .scenario
  | _, .outline => bench.openContainer line opening (.outline [])
  | .feature, .examples | .feature, .step _ =>
      misplaced "before a Background or Scenario"
  | _, .examples => bench.openExamples line opening
  | .container, .step kind => bench.openStep line opening kind
  | .examples, .step _ => misplaced "after an Examples table"

def feedText (bench : Workbench) (line : Nat) (text : Text) : Result :=
  let slots := bench.slots
  match slots.stage with
  | .awaiting => bench.reject line .missingFeature
  | .feature =>
      match slots.feature? with
      | none => bench.stay (slots.lose (.line (.text text)))
      | some feature =>
          let description := feature.description.addLine text
          bench.stay { slots with feature? := some { feature with description } }
  | .container =>
      match slots.container?.filter fun container =>
          container.steps.isEmpty && slots.step?.isNone with
      | none => bench.reject line (.unexpectedContent "text" "after a step")
      | some container =>
          let container :=
            { container with description := container.description.addLine text }
          bench.stay { slots with container? := some container }
  | .examples =>
      match slots.examples?.filter fun examples => examples.2.rows.isEmpty with
      | none => bench.reject line (.unexpectedContent "text" "inside an Examples table")
      | some (group, draft) =>
          let group := { group with description := group.description.addLine text }
          bench.stay (slots.withGroup group draft)

/-- Puts a row into a draft, which goes into its slot whether the row fits or not. -/
def pushRow (bench : Workbench) (row : Row) (draft : TableDraft)
    (fill : TableDraft → Slots) : Result :=
  match draft.push row with
  | .error cause =>
      { bench with slots := fill draft, pending := {} }.reject row.line cause
  | .ok draft => bench.enter (fill draft)

def pushGroupRow (bench : Workbench) (row : Row) : Result :=
  match bench.slots.examples? with
  | none => bench.enter (bench.slots.lose (.row row))
  | some (group, draft) => bench.pushRow row draft (bench.slots.withGroup group)

def pushStepRow (bench : Workbench) (row : Row) : Result :=
  bench.pushRow row (bench.slots.table?.getD {}) bench.slots.withTable

/-- Reads a row and pushes it. -/
def addRow (bench : Workbench) (line : Nat) (raw : Text) (push : Row → Result) :
    Result :=
  match Cells.decode raw with
  | .error fault => bench.reject line (.malformedRow fault.reason)
  | .ok cells => push ⟨bench.node line, cells⟩

def feedRow (bench : Workbench) (line : Nat) (raw : Text) : Result :=
  match bench.slots.stage, bench.slots.examples?.isSome, bench.slots.step?.isSome with
  | .awaiting, _, _ => bench.stay bench.slots
  | .examples, true, _ => bench.addRow line raw bench.pushGroupRow
  | .container, _, true => bench.addRow line raw bench.pushStepRow
  | _, _, _ =>
      bench.reject line (.unexpectedContent "table row" "without a preceding step")

def feedOpening (bench : Workbench) (line : Nat) (opening : FenceLine) : Result :=
  match bench.slots.stage, bench.slots.step?.isSome with
  | .awaiting, _ => bench.stay bench.slots
  | .container, true =>
      let doc : OpenDoc := { line := line, opening := opening }
      bench.stay { bench.slots.flushTable with doc? := some doc }
  | _, _ =>
      bench.reject line (.unexpectedContent "doc string" "without a preceding step")

def feedInDoc (bench : Workbench) (token : Token) : Result :=
  let slots := bench.slots
  match token.kind with
  | .content text =>
      match slots.doc? with
      | none => bench.stay (slots.lose (.line token.kind))
      | some doc => bench.stay { slots with doc? := some (doc.push text) }
  | .fence closing =>
      match slots.doc? with
      | none => bench.stay (slots.lose (.line token.kind))
      | some doc =>
          let slots := { slots with doc? := none }
          if closing.fence = doc.opening.fence then
            match slots.step? with
            | none => bench.stay (slots.lose (.doc doc.close))
            | some step =>
                let step := { step with docs := step.docs ++ [doc.close] }
                bench.stay { slots with step? := some step }
          else
            { bench with slots := slots }.reject token.line
              (.unterminatedDocString doc.line)
  | _ => bench.reject token.line (.unexpectedContent "line" "inside a doc string")

def feedOutside (bench : Workbench) (token : Token) : Result :=
  match token.kind with
  | .blank => bench.stay bench.slots
  | .comment text =>
      let comments := bench.pending.comments ++ [text]
      { bench with pending.comments := comments }.stay bench.slots
  | .tags names =>
      let tags := bench.pending.tags ++ names
      { bench with pending.tags := tags }.stay bench.slots
  | .keyword opening => bench.feedKeyword token.line opening
  | .text text => bench.feedText token.line text
  | .tableRow raw => bench.feedRow token.line raw
  | .fence opening => bench.feedOpening token.line opening
  | .content _ =>
      if bench.slots.stage = .awaiting then
        bench.stay bench.slots
      else
        bench.reject token.line
          (.unexpectedContent "doc string content" "outside a doc string")

/-- Takes one token. -/
def feed (bench : Workbench) (token : Token) : Result :=
  let reached := { bench with lastLine := token.line }
  if reached.slots.doc?.isSome then
    reached.feedInDoc token
  else
    reached.feedOutside token

/-- The finished document. -/
def finish (bench : Workbench) : Except Diagnostic Feature :=
  let last := max bench.lastLine 1
  if bench.slots.doc?.isSome then
    .error ⟨last, .unexpectedEnd "a doc string"⟩
  else
    match bench.slots.closeContainer.feature? with
    | none => .error ⟨last, .missingFeature⟩
    | some feature =>
        match bench.policy with
        | .attach => .ok { feature with trailingComments := bench.pending.comments }
        | .discard => .ok feature

/-- Takes all tokens, whether they are accepted or not, and gathers the diagnostics. -/
def feedOn (bench : Workbench) : List Token → Workbench × List (Option Diagnostic)
  | [] => (bench, [])
  | token :: tokens =>
      let (next, diagnostic?) := bench.feed token
      let (last, diagnostics) := next.feedOn tokens
      (last, diagnostic? :: diagnostics)

end Workbench

/-- Takes all tokens, whether they are accepted or not, and gathers the diagnostics. -/
def Assembly.feedOn (assembly : Assembly) :
    List Token → Assembly × List (Option Diagnostic)
  | [] => (assembly, [])
  | token :: tokens =>
      let outcome := assembly.feed token
      let (last, diagnostics) := outcome.assembly.feedOn tokens
      (last, outcome.diagnostic? :: diagnostics)

end Gherkin
