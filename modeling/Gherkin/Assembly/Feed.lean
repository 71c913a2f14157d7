import Gherkin.Assembly
import Gherkin.Row.Cells
import Gherkin.Token

/-!
# Feeding tokens

One token takes an assembly to the next one or is rejected with a diagnostic at
its line.  A rejected token leaves the assembly as it was, with two exceptions: a
row that does not fit its table has used up the pending comments and tags, and a
fence of the wrong kind inside a doc string drops that doc string.  Feeding a
whole document stops at the first token that is rejected.
-/

namespace Gherkin

/-- What becomes of an assembly and a token. -/
inductive Outcome where
  | accepted (next : Assembly)
  | rejected (left : Assembly) (diagnostic : Diagnostic)
deriving DecidableEq, Repr

namespace Outcome

/-- The assembly behind the token, whether it was accepted or not. -/
def assembly : Outcome → Assembly
  | accepted next => next
  | rejected left _ => left

/-- The diagnostic of a rejected token. -/
def diagnostic? : Outcome → Option Diagnostic
  | accepted _ => none
  | rejected _ diagnostic => some diagnostic

end Outcome

/-- What is wrong with a row whose table starts with the row `first?`. -/
def Row.widthFault? (row : Row) (first? : Option Row) : Option Cause :=
  match first? with
  | none => none
  | some first =>
      if first.cells.length = row.cells.length then
        none
      else
        some (.inconsistentWidth first.cells.length row.cells.length first.line)

namespace Assembly

/-- Rejects a token and leaves the assembly alone. -/
def reject (assembly : Assembly) (line : Nat) (cause : Cause) : Outcome :=
  .rejected assembly ⟨line, cause⟩

/-- Opens a container behind the constructs that make up `feature`. -/
def openContainer (assembly : Assembly) (line : Nat) (opening : KeywordLine)
    (feature : Feature) (kind : ContainerKind) : Outcome :=
  let container : Container :=
    { assembly.node line with
      kind := kind, keyword := opening.keyword, name := opening.text,
      description := [], steps := [] }
  .accepted (assembly.enter (.body feature container none))

/-- Opens a step in a container that holds all steps before it. -/
def openStep (assembly : Assembly) (line : Nat) (opening : KeywordLine)
    (feature : Feature) (container : Container) (kind : StepKeyword) : Outcome :=
  let step : Step :=
    { assembly.node line with
      keyword := opening.keyword, kind := kind, name := opening.text,
      docs := [], rows := [] }
  .accepted (assembly.enter (.body feature container (some { step := step })))

/-- Opens a group of examples below an outline. -/
def openExamples (assembly : Assembly) (line : Nat) (opening : KeywordLine)
    (feature : Feature) (container : Container) : Outcome :=
  if container.isOutline then
    let group : Examples :=
      { assembly.node line with
        keyword := opening.keyword, name := opening.text,
        description := [], rows := [] }
    .accepted (assembly.enter (.examples feature container group))
  else
    assembly.reject line
      (.misplacedKeyword opening.keyword "outside a Scenario Outline")

def openFeature (assembly : Assembly) (line : Nat) (opening : KeywordLine) : Outcome :=
  let feature : Feature :=
    { assembly.node line with
      keyword := opening.keyword, name := opening.text, description := [],
      backgrounds := [], scenarios := [], trailingComments := [] }
  .accepted (assembly.enter (.header feature))

/-- A keyword opens its construct where the phase has a place for it. -/
def feedKeyword (assembly : Assembly) (line : Nat) (opening : KeywordLine) : Outcome :=
  let misplaced context :=
    assembly.reject line (.misplacedKeyword opening.keyword context)
  match assembly.phase.feature? with
  | none =>
      match opening.role with
      | .feature => assembly.openFeature line opening
      | _ => assembly.reject line .missingFeature
  | some closed =>
      match opening.role with
      | .feature => misplaced "more than once per document"
      | .background =>
          match assembly.phase with
          | .header feature => assembly.openContainer line opening feature .background
          | _ => misplaced "after a Background or Scenario"
      | .scenario => assembly.openContainer line opening closed .scenario
      | .outline => assembly.openContainer line opening closed (.outline [])
      | .examples =>
          match assembly.phase with
          | .body feature container open? =>
              assembly.openExamples line opening feature (container.addStep open?)
          | .examples feature container group =>
              assembly.openExamples line opening feature (container.addGroup group)
          | _ => misplaced "before a Background or Scenario"
      | .step kind =>
          match assembly.phase with
          | .body feature container open? =>
              assembly.openStep line opening feature (container.addStep open?) kind
          | .examples _ _ _ => misplaced "after an Examples table"
          | _ => misplaced "before a Background or Scenario"

/-- Free text describes the construct that is open, until that has content. -/
def feedText (assembly : Assembly) (line : Nat) (text : Text) : Outcome :=
  match assembly.phase with
  | .awaiting => assembly.reject line .missingFeature
  | .header feature =>
      let feature := { feature with description := feature.description.addLine text }
      .accepted (assembly.stay (.header feature))
  | .body feature container open? =>
      if container.steps.isEmpty && open?.isNone then
        let container :=
          { container with description := container.description.addLine text }
        .accepted (assembly.stay (.body feature container none))
      else
        assembly.reject line (.unexpectedContent "text" "after a step")
  | .examples feature container group =>
      if group.rows.isEmpty then
        let group := { group with description := group.description.addLine text }
        .accepted (assembly.stay (.examples feature container group))
      else
        assembly.reject line (.unexpectedContent "text" "inside an Examples table")

/-- Adds a row to the table that starts with `first?`, at the place given. -/
def addRow (assembly : Assembly) (line : Nat) (raw : Text) (first? : Option Row)
    (place : Row → Phase) : Outcome :=
  match Cells.decode raw with
  | .error fault => assembly.reject line (.malformedRow fault.reason)
  | .ok cells =>
      let row : Row := { assembly.node line with cells := cells }
      match row.widthFault? first? with
      | some cause => .rejected { assembly with pending := {} } ⟨line, cause⟩
      | none => .accepted (assembly.enter (place row))

/-- A row belongs to the open group of examples or to the open step. -/
def feedRow (assembly : Assembly) (line : Nat) (raw : Text) : Outcome :=
  match assembly.phase with
  | .awaiting => .accepted assembly
  | .body feature container (some ⟨step, slot⟩) =>
      assembly.addRow line raw slot.first? fun row =>
        .body feature container (some
          { step := { step with rows := step.rows ++ [row] },
            slot := .table (slot.first?.getD row) })
  | .examples feature container group =>
      assembly.addRow line raw group.header? fun row =>
        .examples feature container { group with rows := group.rows ++ [row] }
  | _ =>
      assembly.reject line (.unexpectedContent "table row" "without a preceding step")

/-- An opening fence belongs to the open step.  In front of the feature it is
passed over, together with the lines it encloses. -/
def feedOpening (assembly : Assembly) (line : Nat) (opening : FenceLine) : Outcome :=
  match assembly.phase with
  | .awaiting => .accepted assembly
  | .body feature container (some ⟨step, _⟩) =>
      let doc : OpenDoc := { line := line, opening := opening }
      .accepted (assembly.stay (.body feature container (some ⟨step, .doc doc⟩)))
  | _ =>
      assembly.reject line (.unexpectedContent "doc string" "without a preceding step")

/-- A line below an open fence is content, up to the next fence. -/
def feedInDoc (assembly : Assembly) (feature : Feature) (container : Container)
    (step : Step) (doc : OpenDoc) (token : Token) : Outcome :=
  let continueWith (step : Step) (slot : Slot) :=
    assembly.stay (.body feature container (some ⟨step, slot⟩))
  match token.kind with
  | .content line => .accepted (continueWith step (.doc (doc.push line)))
  | .fence closing =>
      if closing.fence = doc.opening.fence then
        .accepted (continueWith { step with docs := step.docs ++ [doc.close] } .idle)
      else
        .rejected (continueWith step .idle)
          ⟨token.line, .unterminatedDocString doc.line⟩
  | _ => assembly.reject token.line (.unexpectedContent "line" "inside a doc string")

/-- A line outside doc strings. -/
def feedOutside (assembly : Assembly) (token : Token) : Outcome :=
  match token.kind with
  | .blank => .accepted assembly
  | .comment text =>
      let comments := assembly.pending.comments ++ [text]
      .accepted { assembly with pending.comments := comments }
  | .tags names =>
      let tags := assembly.pending.tags ++ names
      .accepted { assembly with pending.tags := tags }
  | .keyword opening => assembly.feedKeyword token.line opening
  | .text text => assembly.feedText token.line text
  | .tableRow raw => assembly.feedRow token.line raw
  | .fence opening => assembly.feedOpening token.line opening
  | .content _ =>
      match assembly.phase with
      | .awaiting => .accepted assembly
      | _ =>
          assembly.reject token.line
            (.unexpectedContent "doc string content" "outside a doc string")

/-- Takes one token, whose line becomes the last one whatever comes of it. -/
def feed (assembly : Assembly) (token : Token) : Outcome :=
  let reached := { assembly with lastLine := token.line }
  match reached.phase with
  | .body feature container (some ⟨step, .doc doc⟩) =>
      reached.feedInDoc feature container step doc token
  | _ => reached.feedOutside token

/-- Takes tokens up to the first that is rejected. -/
def feedAll (assembly : Assembly) : List Token → Except Diagnostic Assembly
  | [] => .ok assembly
  | token :: tokens =>
      match assembly.feed token with
      | .accepted next => next.feedAll tokens
      | .rejected _ diagnostic => .error diagnostic

/-- While a doc string is open, every token goes to it. -/
theorem feed_of_doc {assembly : Assembly} {feature : Feature} {container : Container}
    {step : Step} {doc : OpenDoc} (token : Token)
    (hphase : assembly.phase = .body feature container (some ⟨step, .doc doc⟩)) :
    assembly.feed token =
      ({ assembly with lastLine := token.line } : Assembly).feedInDoc
        feature container step doc token := by
  simp [feed, hphase]

/-- While none is open, a token is a line of the document itself. -/
theorem feed_of_doc?_eq_none {assembly : Assembly} (token : Token)
    (hdoc : assembly.phase.doc? = none) :
    assembly.feed token =
      ({ assembly with lastLine := token.line } : Assembly).feedOutside token := by
  unfold feed
  dsimp only
  split
  · next hphase => simp [hphase, Phase.doc?] at hdoc
  · rfl

@[simp]
theorem feedAll_nil (assembly : Assembly) : assembly.feedAll [] = .ok assembly := rfl

/-- The first token decides how feeding goes on. -/
theorem feedAll_cons (assembly : Assembly) (token : Token) (tokens : List Token) :
    assembly.feedAll (token :: tokens) =
      match assembly.feed token with
      | .accepted next => next.feedAll tokens
      | .rejected _ diagnostic => .error diagnostic := rfl

/-- Feeding is compositional: the second half goes on where the first one ended. -/
theorem feedAll_append (assembly : Assembly) (front back : List Token) :
    assembly.feedAll (front ++ back) =
      (assembly.feedAll front).bind fun middle => middle.feedAll back := by
  induction front generalizing assembly with
  | nil => rfl
  | cons token front ih =>
      simp only [List.cons_append, feedAll]
      cases assembly.feed token with
      | accepted next => exact ih next
      | rejected left diagnostic => rfl

end Assembly

end Gherkin
