import Gherkin.Proofs.Assembly.Refusal
import Gherkin.Proofs.Workbench

/-!
# Consistent workbenches

Of the many ways to fill its slots a workbench only comes to seven, each of which is a
phase of an assembly.  A token takes a workbench and an assembly that are filled alike
to such a pair again, whether it is accepted or not, and comes to the same diagnostic on
both.  So a workbench never finds a slot empty that is to take something over, and the
phases keep all that the slots could tell.
-/

namespace Gherkin

/-! ## Drafts -/

namespace TableDraft

/-- The draft that has taken the given rows. -/
def ofRows (rows : List Row) : TableDraft where
  rows := rows
  first? := rows.head?.map fun first => (first.cells.length, first.line)

/-- A draft finds the faults that the first of its rows gives rise to. -/
theorem push_ofRows (rows : List Row) (row : Row) :
    (ofRows rows).push row =
      match row.widthFault? rows.head? with
      | some cause => .error cause
      | none => .ok (ofRows (rows ++ [row])) := by
  cases rows with
  | nil => rfl
  | cons first rows =>
      simp only [push, ofRows, List.head?_cons, Option.map_some, Row.widthFault?]
      by_cases hwidth : first.cells.length = row.cells.length <;> simp [hwidth]

end TableDraft

/-! ## Slots and phases -/

def Phase.stage : Phase → Stage
  | awaiting => .awaiting
  | header _ => .feature
  | body _ _ _ => .container
  | examples _ _ _ => .examples

/-- The step with the rows of its table, as long as they are in a slot of their own. -/
def Step.addRows (step : Step) (rows : List Row) : Step :=
  { step with rows := step.rows ++ rows }

theorem Step.addRows_addRows (step : Step) (front back : List Row) :
    (step.addRows front).addRows back = step.addRows (front ++ back) := by
  rw [addRows, addRows, addRows, List.append_assoc]

/-- The slots are filled as the phase says, and nothing has been lost. -/
inductive Slots.Holds : Slots → Phase → Prop
  | awaiting : Holds {} .awaiting
  | header {feature : Feature} :
      Holds { stage := .feature, feature? := some feature } (.header feature)
  | container {feature : Feature} {container : Container} :
      Holds
        { stage := .container, feature? := some feature, container? := some container }
        (.body feature container none)
  | step {feature : Feature} {container : Container} {step : Step} :
      Holds
        { stage := .container, feature? := some feature, container? := some container
          step? := some step }
        (.body feature container (some ⟨step, .idle⟩))
  | table {feature : Feature} {container : Container} {step : Step} {rows : List Row}
      {first : Row} (hfirst : rows.head? = some first) :
      Holds
        { stage := .container, feature? := some feature, container? := some container
          step? := some step, table? := some (.ofRows rows) }
        (.body feature container (some ⟨step.addRows rows, .table first⟩))
  | doc {feature : Feature} {container : Container} {step : Step} {doc : OpenDoc} :
      Holds
        { stage := .container, feature? := some feature, container? := some container
          step? := some step, doc? := some doc }
        (.body feature container (some ⟨step, .doc doc⟩))
  | examples {feature : Feature} {container : Container} {group : Examples}
      {rows : List Row} (houtline : container.isOutline = true) :
      Holds
        { stage := .examples, feature? := some feature, container? := some container
          examples? := some (group, .ofRows rows) }
        (.examples feature container { group with rows := rows })

namespace Slots

variable {slots : Slots} {phase : Phase}

namespace Holds

theorem stage_eq (hholds : slots.Holds phase) : slots.stage = phase.stage := by
  cases hholds <;> rfl

theorem doc?_eq (hholds : slots.Holds phase) : slots.doc? = phase.doc? := by
  cases hholds <;> rfl

theorem lost_eq_nil (hholds : slots.Holds phase) : slots.lost = [] := by
  cases hholds <;> rfl

/-- Closing the step hands it over to the container, with the rows of its table. -/
theorem closeStep_eq {feature : Feature} {container : Container}
    {open? : Option OpenStep} (hholds : slots.Holds (.body feature container open?))
    (hdoc : (Phase.body feature container open?).doc? = none) :
    slots.closeStep =
      { stage := .container, feature? := some feature
        container? := some (container.addStep open?) } := by
  cases hholds with
  | container | step | table => rfl
  | doc => cases hdoc

/-- What is open in the container is closed without a loss. -/
theorem closeExamples_closeStep_eq {feature : Feature} {container : Container}
    (hholds : slots.Holds phase) (hdoc : phase.doc? = none)
    (hcontainer : phase.container? = some (feature, container)) :
    slots.closeStep.closeExamples =
      { stage := phase.stage, feature? := some feature
        container? := some container } := by
  cases phase with
  | awaiting | header => cases hcontainer
  | body feature container open? =>
      obtain ⟨rfl, rfl⟩ := Prod.mk.inj (Option.some.inj hcontainer)
      rw [hholds.closeStep_eq hdoc]
      rfl
  | examples feature container group =>
      obtain ⟨rfl, rfl⟩ := Prod.mk.inj (Option.some.inj hcontainer)
      cases hholds with
      | examples houtline =>
          simp [closeExamples, closeStep, flushTable, houtline, Phase.stage,
            TableDraft.ofRows]

/-- The container is closed without a loss. -/
theorem closeContainer_eq (hholds : slots.Holds phase) (hdoc : phase.doc? = none) :
    slots.closeContainer = { stage := phase.stage, feature? := phase.feature? } := by
  rcases hcontainer : phase.container? with _ | ⟨feature, container⟩
  · cases hholds with
    | awaiting | header => rfl
    | _ => cases hcontainer
  · simp only [closeContainer, hholds.closeExamples_closeStep_eq hdoc hcontainer,
      Phase.feature?_of_container? hcontainer]

/-- Nothing is lost when everything that is open is closed. -/
theorem lost_closeContainer (hholds : slots.Holds phase) :
    slots.closeContainer.lost = [] := by
  rcases hdoc : phase.doc? with _ | doc
  · rw [hholds.closeContainer_eq hdoc]
  · cases hholds with
    | doc => rfl
    | _ => cases hdoc

/-- The open container is an outline on both sides or on neither. -/
theorem isOutline_eq (hholds : slots.Holds phase) :
    slots.container?.any Container.isOutline =
      phase.container?.any fun place => place.2.isOutline := by
  cases hholds with
  | awaiting | header | container | step | table | doc => rfl
  | examples => simp [Phase.container?, Container.isOutline_addGroup]

end Holds

end Slots

/-- The slots that are filled go together. -/
structure Slots.Consistent (slots : Slots) : Prop where
  awaiting_iff : slots.stage = .awaiting ↔ slots.feature? = none
  empty_of_awaiting : slots.stage = .awaiting →
    slots.container? = none ∧ slots.step? = none ∧ slots.table? = none ∧
      slots.examples? = none ∧ slots.doc? = none
  bare_of_feature : slots.stage = .feature →
    (slots.container? = none ∧ slots.step? = none ∧ slots.table? = none ∧
      slots.examples? = none ∧ slots.doc? = none) ∧
      ∀ feature ∈ slots.feature?, feature.IsBare
  isSome_of_container : slots.stage = .container →
    slots.container?.isSome = true ∧ slots.examples? = none
  isOutline_of_examples : slots.stage = .examples →
    slots.container?.any Container.isOutline = true ∧
      slots.examples?.isSome = true ∧ slots.step? = none ∧ slots.table? = none ∧
      slots.doc? = none
  stage_of_step : slots.step?.isSome = true → slots.stage = .container
  step_of_table : slots.table?.isSome = true → slots.step?.isSome = true
  step_of_doc : slots.doc?.isSome = true →
    slots.step?.isSome = true ∧ slots.table? = none
  sorted : ∀ feature ∈ slots.feature?, feature.Sorted
  bare_of_background : ∀ feature ∈ slots.feature?, ∀ container ∈ slots.container?,
    container.isBackground = true → feature.IsBare

/-- Slots that are filled as a sound phase says are consistent. -/
theorem Slots.Holds.consistent {slots : Slots} {phase : Phase}
    (hholds : slots.Holds phase) (hsound : phase.Sound) : slots.Consistent := by
  cases hholds with
  | awaiting => constructor <;> simp
  | header =>
      have hbare : Feature.IsBare _ := hsound
      constructor <;> simp [hbare, hbare.sorted]
  | container | step | table | doc =>
      obtain ⟨hsorted, hbare, -⟩ := hsound
      constructor
      case bare_of_background => simpa using hbare
      all_goals simp [hsorted]
  | examples houtline =>
      have hscenario := Container.isBackground_of_isOutline houtline
      constructor <;> simp [houtline, hscenario, hsound.1]

/-! ## Workbenches and assemblies -/

namespace Workbench

/-- The assembly that has come to the same point, at the given phase. -/
def assembly (bench : Workbench) (phase : Phase) : Assembly where
  uri := bench.uri
  policy := bench.policy
  pending := bench.pending
  lastLine := bench.lastLine
  phase := phase

/-- A workbench that stands at the same point as an assembly. -/
def Holds (bench : Workbench) (assembly : Assembly) : Prop :=
  ∃ phase, bench.slots.Holds phase ∧ assembly = bench.assembly phase

/-- The token comes to the same on both sides. -/
structure Result.Matches (result : Result) (outcome : Outcome) : Prop where
  holds : result.1.Holds outcome.assembly
  diagnostic : result.2 = outcome.diagnostic?

variable {bench : Workbench} {phase next : Phase} {slots : Slots} {line : Nat}
  {cause : Cause}

theorem matches_reject (hholds : bench.slots.Holds phase) :
    (bench.reject line cause).Matches ((bench.assembly phase).reject line cause) :=
  ⟨⟨phase, hholds, rfl⟩, rfl⟩

theorem matches_pass (hholds : slots.Holds phase) :
    (bench.stay slots).Matches (.accepted (bench.assembly phase)) :=
  ⟨⟨phase, hholds, rfl⟩, rfl⟩

theorem matches_stay (hholds : slots.Holds next) :
    (bench.stay slots).Matches (.accepted ((bench.assembly phase).stay next)) :=
  ⟨⟨next, hholds, rfl⟩, rfl⟩

theorem matches_enter (hholds : slots.Holds next) :
    (bench.enter slots).Matches (.accepted ((bench.assembly phase).enter next)) :=
  ⟨⟨next, hholds, rfl⟩, rfl⟩

theorem matches_openContainer {opening : KeywordLine} {kind : ContainerKind}
    {closed : Feature} (hholds : bench.slots.Holds phase) (hdoc : phase.doc? = none)
    (hclosed : phase.feature? = some closed) :
    (bench.openContainer line opening kind).Matches
      ((bench.assembly phase).openContainer line opening closed kind) := by
  refine matches_enter ?_
  rw [hholds.closeContainer_eq hdoc, hclosed]
  exact .container

theorem matches_openStep {opening : KeywordLine} {kind : StepKeyword}
    {feature : Feature} {container : Container} {open? : Option OpenStep}
    (hholds : bench.slots.Holds (.body feature container open?))
    (hdoc : (Phase.body feature container open?).doc? = none) :
    (bench.openStep line opening kind).Matches
      ((bench.assembly (.body feature container open?)).openStep line opening feature
        (container.addStep open?) kind) := by
  refine matches_enter ?_
  rw [hholds.closeStep_eq hdoc]
  exact .step

theorem matches_openExamples {opening : KeywordLine} {feature : Feature}
    {container : Container} (hholds : bench.slots.Holds phase)
    (hdoc : phase.doc? = none)
    (hcontainer : phase.container? = some (feature, container)) :
    (bench.openExamples line opening).Matches
      ((bench.assembly phase).openExamples line opening feature container) := by
  unfold openExamples Assembly.openExamples
  rw [hholds.isOutline_eq, hcontainer, Option.any_some]
  split
  · next houtline =>
      refine matches_enter ?_
      rw [hholds.closeExamples_closeStep_eq hdoc hcontainer]
      exact .examples houtline
  · exact matches_reject hholds

theorem matches_openFeature {opening : KeywordLine}
    (hholds : bench.slots.Holds .awaiting) :
    (bench.openFeature line opening).Matches
      ((bench.assembly .awaiting).openFeature line opening) := by
  refine matches_enter ?_
  generalize bench.slots = slots at hholds
  cases hholds with
  | awaiting => exact .header

theorem matches_feedKeyword {opening : KeywordLine} (hholds : bench.slots.Holds phase)
    (hdoc : phase.doc? = none) :
    (bench.feedKeyword line opening).Matches
      ((bench.assembly phase).feedKeyword line opening) := by
  have hstage := hholds.stage_eq
  unfold feedKeyword Assembly.feedKeyword
  rw [hstage]
  cases phase with
  | awaiting =>
      rcases hrole : opening.role with _ | _ | _ | _ | _ | _
      case feature => exact matches_openFeature hholds
      all_goals exact matches_reject hholds
  | header feature =>
      rcases hrole : opening.role with _ | _ | _ | _ | _ | _
      case background | scenario | outline => exact matches_openContainer hholds rfl rfl
      all_goals exact matches_reject hholds
  | body feature container open? =>
      rcases hrole : opening.role with _ | _ | _ | _ | _ | _
      case scenario | outline => exact matches_openContainer hholds hdoc rfl
      case examples => exact matches_openExamples hholds hdoc rfl
      case step => exact matches_openStep hholds hdoc
      all_goals exact matches_reject hholds
  | examples feature container group =>
      rcases hrole : opening.role with _ | _ | _ | _ | _ | _
      case scenario | outline => exact matches_openContainer hholds hdoc rfl
      case examples => exact matches_openExamples hholds hdoc rfl
      all_goals exact matches_reject hholds

/-- Free text describes the same construct on both sides, or none on either. -/
theorem matches_feedText {text : Text} (hholds : bench.slots.Holds phase) :
    (bench.feedText line text).Matches ((bench.assembly phase).feedText line text) := by
  unfold feedText Assembly.feedText
  generalize hslots : bench.slots = slots at hholds
  have hreject {cause : Cause} :
      (bench.reject line cause).Matches ((bench.assembly phase).reject line cause) :=
    matches_reject (hslots ▸ hholds)
  cases hholds with
  | awaiting => exact hreject
  | header => exact matches_stay .header
  | @container feature container =>
      rcases hempty : container.steps.isEmpty <;>
        simp only [Option.filter, hempty, Option.isNone_none, Bool.and_true, assembly]
      · exact hreject
      · exact matches_stay .container
  | step | table | doc =>
      simp only [Option.filter, Option.isNone_some, Bool.and_false, assembly]
      exact hreject
  | @examples feature container group rows houtline =>
      rcases hempty : rows.isEmpty <;>
        simp only [Option.filter, TableDraft.ofRows, hempty, assembly]
      · exact hreject
      · exact matches_stay (.examples houtline)

theorem matches_feedOpening {opening : FenceLine} (hholds : bench.slots.Holds phase)
    (hdoc : phase.doc? = none) :
    (bench.feedOpening line opening).Matches
      ((bench.assembly phase).feedOpening line opening) := by
  unfold feedOpening Assembly.feedOpening
  generalize hslots : bench.slots = slots at hholds
  have hreject {cause : Cause} :
      (bench.reject line cause).Matches ((bench.assembly phase).reject line cause) :=
    matches_reject (hslots ▸ hholds)
  cases hholds with
  | awaiting => exact matches_pass .awaiting
  | header | container | examples => exact hreject
  | step | table => exact matches_stay .doc
  | doc => cases hdoc

/-- A row that goes into a draft goes into the table that the draft stands for. -/
theorem matches_addRow {raw : Text} {push : Row → Result} {rows : List Row}
    {first? : Option Row} {fill : TableDraft → Slots} {place : Row → Phase}
    (hholds : bench.slots.Holds phase) (hfirst : rows.head? = first?)
    (hpush : ∀ row, push row = bench.pushRow row (.ofRows rows) fill)
    (hleft : rows ≠ [] → fill (.ofRows rows) = bench.slots)
    (hnext : ∀ row, (fill (.ofRows (rows ++ [row]))).Holds (place row)) :
    (bench.addRow line raw push).Matches
      ((bench.assembly phase).addRow line raw first? place) := by
  subst hfirst
  unfold addRow Assembly.addRow
  rcases Cells.decode raw with fault | cells
  · exact matches_reject hholds
  · have hnode : (bench.assembly phase).node line = bench.node line := rfl
    dsimp only
    rw [hpush, pushRow, TableDraft.push_ofRows, hnode]
    rcases hfault : Row.widthFault? ⟨bench.node line, cells⟩ rows.head? with _ | cause
    · exact matches_enter (hnext _)
    · -- A first row always fits, so the draft has been in its slot already.
      have hne : rows ≠ [] := by
        rintro rfl
        cases hfault
      refine ⟨⟨phase, ?_, rfl⟩, rfl⟩
      dsimp only [reject]
      rw [hleft hne]
      exact hholds

theorem matches_feedRow {raw : Text} (hholds : bench.slots.Holds phase)
    (hdoc : phase.doc? = none) :
    (bench.feedRow line raw).Matches ((bench.assembly phase).feedRow line raw) := by
  unfold feedRow Assembly.feedRow
  have hstart := hholds
  generalize hslots : bench.slots = slots at hholds ⊢
  cases hholds with
  | awaiting => exact matches_pass .awaiting
  | header | container => exact matches_reject hstart
  | @step feature container step =>
      have hpush (row : Row) : bench.pushStepRow row =
          bench.pushRow row (.ofRows []) bench.slots.withTable := by
        rw [pushStepRow, hslots]
        rfl
      have hnext (row : Row) : (bench.slots.withTable (.ofRows [row])).Holds
          (.body feature container (some ⟨step.addRows [row], .table row⟩)) := by
        rw [hslots]
        exact .table rfl
      exact matches_addRow hstart rfl hpush nofun hnext
  | @table feature container step rows first hfirst =>
      have hpush (row : Row) : bench.pushStepRow row =
          bench.pushRow row (.ofRows rows) bench.slots.withTable := by
        rw [pushStepRow, hslots]
        rfl
      have hnext (row : Row) : (bench.slots.withTable (.ofRows (rows ++ [row]))).Holds
          (.body feature container
            (some ⟨(step.addRows rows).addRows [row], .table first⟩)) := by
        rw [hslots, Step.addRows_addRows]
        exact .table (by rw [List.head?_append, hfirst, Option.some_or])
      exact matches_addRow hstart hfirst hpush (fun _ => by rw [hslots]; rfl) hnext
  | @examples feature container group rows houtline =>
      have hpush (row : Row) : bench.pushGroupRow row =
          bench.pushRow row (.ofRows rows) (bench.slots.withGroup group) := by
        rw [pushGroupRow, hslots]
      have hnext (row : Row) :
          (bench.slots.withGroup group (.ofRows (rows ++ [row]))).Holds
            (.examples feature container { group with rows := rows ++ [row] }) := by
        rw [hslots]
        exact .examples houtline
      exact matches_addRow hstart rfl hpush (fun _ => by rw [hslots]; rfl) hnext
  | doc => cases hdoc

theorem matches_feedInDoc {feature : Feature} {container : Container} {step : Step}
    {doc : OpenDoc}
    (hholds : bench.slots.Holds (.body feature container (some ⟨step, .doc doc⟩)))
    (token : Token) :
    (bench.feedInDoc token).Matches
      ((bench.assembly (.body feature container (some ⟨step, .doc doc⟩))).feedInDoc
        feature container step doc token) := by
  unfold feedInDoc Assembly.feedInDoc
  have hstart := hholds
  generalize hslots : bench.slots = slots at hholds ⊢
  generalize hphase : Phase.body feature container (some ⟨step, .doc doc⟩) = phase
    at hholds
  cases hholds with
  | doc =>
      cases hphase
      cases token.kind with
      | content => exact matches_stay .doc
      | fence closing =>
          dsimp only
          split
          · exact matches_stay .step
          · exact ⟨⟨_, .step, rfl⟩, rfl⟩
      | _ => exact matches_reject hstart
  | _ => cases hphase

theorem matches_feedOutside (hholds : bench.slots.Holds phase)
    (hdoc : phase.doc? = none) (token : Token) :
    (bench.feedOutside token).Matches
      ((bench.assembly phase).feedOutside token) := by
  unfold feedOutside Assembly.feedOutside
  cases token.kind with
  | blank | comment | tags => exact ⟨⟨phase, hholds, rfl⟩, rfl⟩
  | keyword => exact matches_feedKeyword hholds hdoc
  | text => exact matches_feedText hholds
  | tableRow => exact matches_feedRow hholds hdoc
  | fence => exact matches_feedOpening hholds hdoc
  | content =>
      dsimp only
      rw [hholds.stage_eq]
      cases phase with
      | awaiting => exact matches_pass hholds
      | header | body | examples => exact matches_reject hholds

variable {assembly : Assembly}

/-- A token comes to the same on a workbench and in an assembly. -/
theorem Holds.feed (hholds : bench.Holds assembly) (token : Token) :
    (bench.feed token).Matches (assembly.feed token) := by
  obtain ⟨phase, hslots, rfl⟩ := hholds
  let reached : Workbench := { bench with lastLine := token.line }
  have hreached : reached.slots.Holds phase := hslots
  unfold feed
  dsimp only
  rw [hslots.doc?_eq]
  rcases hdoc : phase.doc? with _ | doc
  · rw [Assembly.feed_of_doc?_eq_none token hdoc]
    exact matches_feedOutside hreached hdoc token
  · obtain ⟨feature, container, step, rfl⟩ := Phase.doc?_eq_some.mp hdoc
    rw [Assembly.feed_of_doc token rfl]
    exact matches_feedInDoc hreached token

/-- And so does the end of the document. -/
theorem Holds.finish_eq (hholds : bench.Holds assembly) :
    bench.finish = assembly.finish := by
  obtain ⟨phase, hslots, rfl⟩ := hholds
  unfold finish Assembly.finish
  dsimp only
  rw [hslots.doc?_eq, show (bench.assembly phase).phase = phase from rfl]
  rcases hdoc : phase.doc? with _ | doc
  · rw [hslots.closeContainer_eq hdoc]
    rcases phase.feature? with _ | feature <;> rfl
  · rfl

theorem holds_start (uri : Text) (policy : TrailingComments) :
    (start uri policy).Holds (Assembly.start uri policy) :=
  ⟨.awaiting, .awaiting, rfl⟩

theorem Holds.feedOn (hholds : bench.Holds assembly) (tokens : List Token) :
    (bench.feedOn tokens).1.Holds (assembly.feedOn tokens).1 ∧
      (bench.feedOn tokens).2 = (assembly.feedOn tokens).2 := by
  induction tokens generalizing bench assembly with
  | nil => exact ⟨hholds, rfl⟩
  | cons token tokens ih =>
      have hmatches := hholds.feed token
      obtain ⟨hlast, hdiagnostics⟩ := ih hmatches.holds
      refine ⟨hlast, ?_⟩
      rw [Workbench.feedOn, Assembly.feedOn]
      exact List.cons_eq_cons.mpr ⟨hmatches.diagnostic, hdiagnostics⟩

end Workbench

theorem Assembly.sound_feedOn {assembly : Assembly} (hsound : assembly.phase.Sound)
    (tokens : List Token) : (assembly.feedOn tokens).1.phase.Sound := by
  induction tokens generalizing assembly with
  | nil => exact hsound
  | cons token tokens ih => exact ih (sound_feed token hsound)

/-- Whatever tokens a workbench is given, and however many of them it rejects, its slots
are consistent and nothing has been lost, nor will be when it is finished.  It comes to
the same diagnostics and to the same document as an assembly. -/
theorem Workbench.feedOn_consistent (uri : Text) (policy : TrailingComments)
    (tokens : List Token) :
    let run := (Workbench.start uri policy).feedOn tokens
    let assembled := (Assembly.start uri policy).feedOn tokens
    run.1.slots.Consistent ∧
      run.1.slots.lost = [] ∧
      run.1.slots.closeContainer.lost = [] ∧
      run.2 = assembled.2 ∧
      run.1.finish = assembled.1.finish := by
  intro run assembled
  obtain ⟨hholds, hdiagnostics⟩ := (holds_start uri policy).feedOn tokens
  have hstart : (Assembly.start uri policy).phase.Sound := trivial
  have hsound : assembled.1.phase.Sound := Assembly.sound_feedOn hstart tokens
  have hfinish := hholds.finish_eq
  obtain ⟨phase, hslots, hassembled⟩ := hholds
  have hphase : assembled.1.phase = phase := congrArg Assembly.phase hassembled
  rw [hphase] at hsound
  exact ⟨hslots.consistent hsound, hslots.lost_eq_nil, hslots.lost_closeContainer,
    hdiagnostics, hfinish⟩

end Gherkin
