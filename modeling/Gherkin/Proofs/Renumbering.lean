import Gherkin.Proofs.Parsed

/-!
# Renumbering lines

An assembly copies line numbers into the nodes it makes and into its diagnostics, and
looks at them for nothing else.  So renumbering the lines of a document renumbers what
comes of reading it, and everything that is said about a document up to its line
numbers can be said about one whose lines all have the same number.
-/

namespace Gherkin

variable (renumber : Nat → Nat)

def Node.mapLines (node : Node) : Node :=
  { node with line := renumber node.line }

def Row.mapLines (row : Row) : Row :=
  { row with toNode := row.toNode.mapLines renumber }

def DocString.mapLines (doc : DocString) : DocString :=
  { doc with line := renumber doc.line }

def Step.mapLines (step : Step) : Step :=
  { step with
    toNode := step.toNode.mapLines renumber
    docs := step.docs.map (DocString.mapLines renumber)
    rows := step.rows.map (Row.mapLines renumber) }

def Examples.mapLines (group : Examples) : Examples :=
  { group with
    toNode := group.toNode.mapLines renumber
    rows := group.rows.map (Row.mapLines renumber) }

def ContainerKind.mapLines : ContainerKind → ContainerKind
  | background => .background
  | scenario => .scenario
  | outline groups => .outline (groups.map (Examples.mapLines renumber))

def Container.mapLines (container : Container) : Container :=
  { container with
    toNode := container.toNode.mapLines renumber
    kind := container.kind.mapLines renumber
    steps := container.steps.map (Step.mapLines renumber) }

def Feature.mapLines (feature : Feature) : Feature :=
  { feature with
    toNode := feature.toNode.mapLines renumber
    backgrounds := feature.backgrounds.map (Container.mapLines renumber)
    scenarios := feature.scenarios.map (Container.mapLines renumber) }

/-- The same number for every line. -/
def noLine (_ : Nat) : Nat := 0

/-- The document without its line numbers. -/
def Feature.eraseLines (feature : Feature) : Feature :=
  feature.mapLines noLine

def Token.mapLines (token : Token) : Token :=
  { token with line := renumber token.line }

def OpenDoc.mapLines (doc : OpenDoc) : OpenDoc :=
  { doc with line := renumber doc.line }

def Slot.mapLines : Slot → Slot
  | idle => .idle
  | table first => .table (first.mapLines renumber)
  | doc opened => .doc (opened.mapLines renumber)

def OpenStep.mapLines (openStep : OpenStep) : OpenStep where
  step := openStep.step.mapLines renumber
  slot := openStep.slot.mapLines renumber

def Phase.mapLines : Phase → Phase
  | awaiting => .awaiting
  | header feature => .header (feature.mapLines renumber)
  | body feature container open? =>
      .body (feature.mapLines renumber) (container.mapLines renumber)
        (open?.map (OpenStep.mapLines renumber))
  | examples feature container group =>
      .examples (feature.mapLines renumber) (container.mapLines renumber)
        (group.mapLines renumber)

def Assembly.mapLines (assembly : Assembly) : Assembly :=
  { assembly with
    lastLine := renumber assembly.lastLine
    phase := assembly.phase.mapLines renumber }

def Cause.mapLines : Cause → Cause
  | unterminatedDocString openedAt => .unterminatedDocString (renumber openedAt)
  | inconsistentWidth expected found firstLine =>
      .inconsistentWidth expected found (renumber firstLine)
  | cause => cause

def Diagnostic.mapLines (diagnostic : Diagnostic) : Diagnostic where
  line := renumber diagnostic.line
  cause := diagnostic.cause.mapLines renumber

def Outcome.mapLines : Outcome → Outcome
  | accepted next => .accepted (next.mapLines renumber)
  | rejected left diagnostic =>
      .rejected (left.mapLines renumber) (diagnostic.mapLines renumber)

/-! ## Putting constructs into place -/

namespace Container

@[simp]
theorem isBackground_mapLines (container : Container) :
    (container.mapLines renumber).isBackground = container.isBackground := by
  rcases container with
    ⟨node, _ | _ | groups, keyword, name, description, steps⟩ <;> rfl

@[simp]
theorem isOutline_mapLines (container : Container) :
    (container.mapLines renumber).isOutline = container.isOutline := by
  rcases container with
    ⟨node, _ | _ | groups, keyword, name, description, steps⟩ <;> rfl

theorem mapLines_addStep (container : Container) (open? : Option OpenStep) :
    (container.addStep open?).mapLines renumber =
      (container.mapLines renumber).addStep
      (open?.map (OpenStep.mapLines renumber)) := by
  cases open? with
  | none => rfl
  | some openStep => simp [addStep, mapLines, OpenStep.mapLines]

theorem mapLines_addGroup (container : Container) (group : Examples) :
    (container.addGroup group).mapLines renumber =
      (container.mapLines renumber).addGroup (group.mapLines renumber) := by
  rcases container with ⟨node, _ | _ | groups, keyword, name, description, steps⟩ <;>
    simp [addGroup, mapLines, ContainerKind.mapLines]

end Container

theorem Feature.mapLines_addContainer (feature : Feature) (container : Container) :
    (feature.addContainer container).mapLines renumber =
      (feature.mapLines renumber).addContainer (container.mapLines renumber) := by
  unfold addContainer
  rw [Container.isBackground_mapLines]
  split <;> simp [mapLines]

namespace Phase

theorem feature?_mapLines (phase : Phase) :
    (phase.mapLines renumber).feature? =
      phase.feature?.map (Feature.mapLines renumber) := by
  cases phase with
  | awaiting | header => rfl
  | body feature container open? =>
      exact congrArg some
        (by rw [Feature.mapLines_addContainer, Container.mapLines_addStep])
  | examples feature container group =>
      exact congrArg some
        (by rw [Feature.mapLines_addContainer, Container.mapLines_addGroup])

theorem doc?_mapLines (phase : Phase) :
    (phase.mapLines renumber).doc? = phase.doc?.map (OpenDoc.mapLines renumber) := by
  rcases phase with _ | feature | ⟨feature, container, _ | ⟨step, _ | _ | _⟩⟩ |
    _ <;> rfl

end Phase

/-! ## Feeding -/

theorem Row.widthFault?_mapLines (row : Row) (first? : Option Row) :
    (row.mapLines renumber).widthFault? (first?.map (Row.mapLines renumber)) =
      (row.widthFault? first?).map (Cause.mapLines renumber) := by
  cases first? with
  | none => rfl
  | some first =>
      by_cases hwidth : first.cells.length = row.cells.length <;>
        simp [widthFault?, mapLines, hwidth, Cause.mapLines, Node.mapLines]

namespace Assembly

variable (assembly : Assembly) (line : Nat) (opening : KeywordLine)

theorem openExamples_mapLines (feature : Feature) (container : Container) :
    (assembly.mapLines renumber).openExamples (renumber line) opening
        (feature.mapLines renumber) (container.mapLines renumber) =
      (assembly.openExamples line opening feature container).mapLines renumber := by
  unfold openExamples
  rw [Container.isOutline_mapLines]
  split <;> rfl

theorem feedKeyword_mapLines :
    (assembly.mapLines renumber).feedKeyword (renumber line) opening =
      (assembly.feedKeyword line opening).mapLines renumber := by
  rcases opening with ⟨role, keyword, text⟩
  rcases assembly with ⟨uri, policy, pending, lastLine, _ | feature |
    ⟨feature, container, open?⟩ | ⟨feature, container, group⟩⟩
  case awaiting => cases role <;> rfl
  case header => cases role <;> rfl
  case body =>
    unfold feedKeyword
    dsimp only [mapLines, Phase.mapLines, Phase.feature?]
    rw [← Container.mapLines_addStep, ← Feature.mapLines_addContainer]
    cases role
    case examples =>
      exact openExamples_mapLines renumber
        ⟨uri, policy, pending, lastLine, .body feature container open?⟩ line
        ⟨.examples, keyword, text⟩ feature (container.addStep open?)
    all_goals rfl
  case examples =>
    unfold feedKeyword
    dsimp only [mapLines, Phase.mapLines, Phase.feature?]
    rw [← Container.mapLines_addGroup, ← Feature.mapLines_addContainer]
    cases role
    case examples =>
      exact openExamples_mapLines renumber
        ⟨uri, policy, pending, lastLine, .examples feature container group⟩ line
        ⟨.examples, keyword, text⟩ feature (container.addGroup group)
    all_goals rfl

theorem feedText_mapLines (text : Text) :
    (assembly.mapLines renumber).feedText (renumber line) text =
      (assembly.feedText line text).mapLines renumber := by
  rcases assembly with ⟨uri, policy, pending, lastLine, _ | feature |
    ⟨feature, container, open?⟩ | ⟨feature, container, group⟩⟩
  case awaiting => rfl
  case header => rfl
  case body =>
    unfold feedText
    dsimp only [mapLines, Phase.mapLines, Container.mapLines]
    rw [List.isEmpty_map, Option.isNone_map]
    split <;> rfl
  case examples =>
    unfold feedText
    dsimp only [mapLines, Phase.mapLines, Examples.mapLines]
    rw [List.isEmpty_map]
    split <;> rfl

theorem addRow_mapLines (raw : Text) (first? : Option Row) {place placed : Row → Phase}
    (hplace : ∀ row, placed (row.mapLines renumber) = (place row).mapLines renumber) :
    (assembly.mapLines renumber).addRow (renumber line) raw
        (first?.map (Row.mapLines renumber)) placed =
      (assembly.addRow line raw first? place).mapLines renumber := by
  unfold addRow
  rcases Cells.decode raw with fault | cells
  · rfl
  · have hrow : (⟨(assembly.mapLines renumber).node (renumber line), cells⟩ : Row) =
        Row.mapLines renumber ⟨assembly.node line, cells⟩ := rfl
    dsimp only
    rw [hrow, Row.widthFault?_mapLines]
    rcases Row.widthFault? ⟨assembly.node line, cells⟩ first? with _ | cause
    · rw [Option.map_none]
      dsimp only
      rw [hplace]
      rfl
    · rfl

theorem feedRow_mapLines (raw : Text) :
    (assembly.mapLines renumber).feedRow (renumber line) raw =
      (assembly.feedRow line raw).mapLines renumber := by
  rcases assembly with ⟨uri, policy, pending, lastLine, _ | feature |
    ⟨feature, container, _ | ⟨step, slot⟩⟩ | ⟨feature, container, group⟩⟩
  case body.some =>
    have hfirst : (slot.mapLines renumber).first? =
        slot.first?.map (Row.mapLines renumber) := by
      cases slot <;> rfl
    unfold feedRow
    dsimp only [mapLines, Phase.mapLines, Option.map_some, OpenStep.mapLines]
    rw [hfirst]
    refine addRow_mapLines renumber
      ⟨uri, policy, pending, lastLine,
        .body feature container (some ⟨step, slot⟩)⟩ line raw
      slot.first? fun row => ?_
    simp only [Phase.mapLines, Option.map_some, OpenStep.mapLines, Step.mapLines,
      List.map_append, List.map_singleton, Slot.mapLines]
    cases slot.first? <;> rfl
  case examples =>
    have hfirst : (group.mapLines renumber).header? =
        group.header?.map (Row.mapLines renumber) := List.head?_map
    unfold feedRow
    dsimp only [mapLines, Phase.mapLines]
    rw [hfirst]
    refine addRow_mapLines renumber
      ⟨uri, policy, pending, lastLine, .examples feature container group⟩ line raw
      group.header? fun row => ?_
    simp only [Phase.mapLines, Examples.mapLines, List.map_append, List.map_singleton]
  all_goals rfl

theorem feedOpening_mapLines (opening : FenceLine) :
    (assembly.mapLines renumber).feedOpening (renumber line) opening =
      (assembly.feedOpening line opening).mapLines renumber := by
  rcases assembly with ⟨uri, policy, pending, lastLine, _ | feature |
    ⟨feature, container, _ | ⟨step, slot⟩⟩ | ⟨feature, container, group⟩⟩ <;> rfl

theorem feedInDoc_mapLines (feature : Feature) (container : Container) (step : Step)
    (doc : OpenDoc) (token : Token) :
    (assembly.mapLines renumber).feedInDoc (feature.mapLines renumber)
        (container.mapLines renumber) (step.mapLines renumber) (doc.mapLines renumber)
        (token.mapLines renumber) =
      (assembly.feedInDoc feature container step doc token).mapLines renumber := by
  rcases token with ⟨line, kind⟩
  cases kind with
  | fence closing =>
      unfold feedInDoc
      dsimp only [Token.mapLines]
      by_cases hfence : closing.fence = doc.opening.fence
      · have hmapped : closing.fence = (doc.mapLines renumber).opening.fence := hfence
        rw [if_pos hfence, if_pos hmapped]
        simp only [Outcome.mapLines, mapLines, stay, Phase.mapLines, Option.map_some,
          OpenStep.mapLines, Step.mapLines, List.map_append, List.map_singleton]
        rfl
      · have hmapped : ¬ closing.fence = (doc.mapLines renumber).opening.fence := hfence
        rw [if_neg hfence, if_neg hmapped]
        rfl
  | _ => rfl

theorem feedOutside_mapLines (token : Token) :
    (assembly.mapLines renumber).feedOutside (token.mapLines renumber) =
      (assembly.feedOutside token).mapLines renumber := by
  rcases token with ⟨line, kind⟩
  cases kind with
  | keyword opening => exact assembly.feedKeyword_mapLines renumber line opening
  | tableRow raw => exact assembly.feedRow_mapLines renumber line raw
  | fence opening => exact assembly.feedOpening_mapLines renumber line opening
  | text text => exact assembly.feedText_mapLines renumber line text
  | content text =>
      rcases assembly with ⟨uri, policy, pending, lastLine, _ | _ | _ | _⟩ <;> rfl
  | _ => rfl

/-- Renumbering the lines renumbers the outcome of feeding a token. -/
theorem feed_mapLines (token : Token) :
    (assembly.mapLines renumber).feed (token.mapLines renumber) =
      (assembly.feed token).mapLines renumber := by
  let reached : Assembly := { assembly with lastLine := token.line }
  rcases hdoc : assembly.phase.doc? with _ | doc
  · have hmapped : (assembly.mapLines renumber).phase.doc? = none := by
      rw [mapLines, Phase.doc?_mapLines, hdoc]
      rfl
    rw [feed_of_doc?_eq_none _ hmapped, feed_of_doc?_eq_none token hdoc]
    exact reached.feedOutside_mapLines renumber token
  · obtain ⟨feature, container, step, hphase⟩ := Phase.doc?_eq_some.mp hdoc
    have hmapped : (assembly.mapLines renumber).phase =
        .body (feature.mapLines renumber) (container.mapLines renumber)
          (some ⟨step.mapLines renumber, .doc (doc.mapLines renumber)⟩) := by
      rw [mapLines, hphase]
      rfl
    rw [feed_of_doc _ hmapped, feed_of_doc token hphase]
    exact reached.feedInDoc_mapLines renumber feature container step doc token

/-- Renumbering the lines renumbers the outcome of a run. -/
theorem feedAll_mapLines (tokens : List Token) :
    (assembly.mapLines renumber).feedAll (tokens.map (Token.mapLines renumber)) =
      ((assembly.feedAll tokens).map (Assembly.mapLines renumber)).mapError
        (Diagnostic.mapLines renumber) := by
  induction tokens generalizing assembly with
  | nil => rfl
  | cons token tokens ih =>
      rw [List.map_cons, feedAll_cons, feed_mapLines, feedAll_cons]
      cases assembly.feed token with
      | accepted next => exact ih next
      | rejected left diagnostic => rfl

/-- Renumbering the lines renumbers the end of a run, if it respects the first line,
which stands in for the last one of an empty document. -/
theorem finish_mapLines
    (hlast : max (renumber assembly.lastLine) 1 = renumber (max assembly.lastLine 1)) :
    (assembly.mapLines renumber).finish =
      (assembly.finish.map (Feature.mapLines renumber)).mapError
        (Diagnostic.mapLines renumber) := by
  unfold finish
  dsimp only [mapLines]
  rw [Phase.doc?_mapLines, Phase.feature?_mapLines, hlast]
  rcases assembly.phase.doc? with _ | doc
  · rcases assembly.phase.feature? with _ | closed
    · rfl
    · cases assembly.policy <;> rfl
  · rfl

theorem finish_mapLines_eq_ok_iff {mapped : Feature} :
    (assembly.mapLines renumber).finish = .ok mapped ↔
      ∃ feature, assembly.finish = .ok feature ∧
        feature.mapLines renumber = mapped := by
  have hsettle (closed : Feature) :
      (closed.mapLines renumber).settle assembly.policy assembly.pending.comments =
        (closed.settle assembly.policy assembly.pending.comments).mapLines
          renumber := by
    cases assembly.policy <;> rfl
  simp only [finish_eq_ok_iff, mapLines, Phase.doc?_mapLines, Phase.feature?_mapLines,
    Option.map_eq_none_iff, Option.map_eq_some_iff]
  constructor
  · rintro ⟨hdoc, -, ⟨closed, hclosed, rfl⟩, rfl⟩
    exact ⟨_, ⟨hdoc, closed, hclosed, rfl⟩, (hsettle closed).symm⟩
  · rintro ⟨-, ⟨hdoc, closed, hclosed, rfl⟩, rfl⟩
    exact ⟨hdoc, _, ⟨closed, hclosed, rfl⟩, (hsettle closed).symm⟩

end Assembly

end Gherkin
