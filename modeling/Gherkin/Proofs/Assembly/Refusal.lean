import Gherkin.Proofs.Assembly.Sound

/-!
# How a token is rejected

A token that is rejected has no place where it stands, does not fit the table that is
open, or is a fence that cannot close the open doc string.  In the first case nothing
but the last line changes.  In the second the row has used up what was pending, and in
the third the doc string is dropped.  The relations below list these cases with their
causes, beside the moves of the tokens that are accepted.
-/

namespace Gherkin

namespace Phase

/-- A line of the given kind has no place in the phase. -/
inductive Refuses : Phase → LineKind → Cause → Prop
  | missing {kind : LineKind} : Refuses .awaiting kind .missingFeature
  | misplaced {phase : Phase} {opening : KeywordLine} {context : String} :
      Refuses phase (.keyword opening) (.misplacedKeyword opening.keyword context)
  | textBehindStep {phase : Phase} {text : Text} :
      Refuses phase (.text text) (.unexpectedContent "text" "after a step")
  | textBehindRow {phase : Phase} {text : Text} :
      Refuses phase (.text text) (.unexpectedContent "text" "inside an Examples table")
  | malformed {phase : Phase} {raw : Text} {fault : RowFault}
      (hcells : Cells.decode raw = .error fault) :
      Refuses phase (.tableRow raw) (.malformedRow fault.reason)
  | row {phase : Phase} {raw : Text} :
      Refuses phase (.tableRow raw)
        (.unexpectedContent "table row" "without a preceding step")
  | fence {phase : Phase} {opening : FenceLine} :
      Refuses phase (.fence opening)
        (.unexpectedContent "doc string" "without a preceding step")
  | content {phase : Phase} {text : Text} (hphase : phase ≠ .awaiting)
      (hdoc : phase.doc? = none) :
      Refuses phase (.content text)
        (.unexpectedContent "doc string content" "outside a doc string")
  | inDoc {phase : Phase} {kind : LineKind} {doc : OpenDoc}
      (hdoc : phase.doc? = some doc) (hcontent : ∀ text, kind ≠ .content text)
      (hfence : ∀ closing, kind ≠ .fence closing) :
      Refuses phase kind (.unexpectedContent "line" "inside a doc string")

/-- The row that the next row of the phase is compared with. -/
def firstRow? : Phase → Option Row
  | body _ _ (some ⟨_, slot⟩) => slot.first?
  | examples _ _ group => group.header?
  | _ => none

end Phase

namespace Assembly

/-- What a rejected token does to an assembly, and why it is rejected. -/
inductive Refusal (assembly : Assembly) (token : Token) : Assembly → Cause → Prop
  | noPlace {cause : Cause} (hrefuses : assembly.phase.Refuses token.kind cause) :
      Refusal assembly token { assembly with lastLine := token.line } cause
  | width {first : Row} {raw : Text} {cells : List Text}
      (hfirst : assembly.phase.firstRow? = some first)
      (hkind : token.kind = .tableRow raw) (hcells : Cells.decode raw = .ok cells)
      (hwidth : first.cells.length ≠ cells.length) :
      Refusal assembly token { assembly with pending := {}, lastLine := token.line }
        (.inconsistentWidth first.cells.length cells.length first.line)
  | otherFence {feature : Feature} {container : Container} {step : Step}
      {doc : OpenDoc} {closing : FenceLine}
      (hphase : assembly.phase = .body feature container (some ⟨step, .doc doc⟩))
      (hkind : token.kind = .fence closing)
      (hfence : closing.fence ≠ doc.opening.fence) :
      Refusal assembly token
        { assembly with
          lastLine := token.line
          phase := .body feature container (some ⟨step, .idle⟩) }
        (.unterminatedDocString doc.line)

variable {assembly left : Assembly} {line : Nat} {diagnostic : Diagnostic}

theorem eq_of_reject_eq_rejected {cause : Cause}
    (hfed : assembly.reject line cause = .rejected left diagnostic) :
    left = assembly ∧ diagnostic = ⟨line, cause⟩ := by
  obtain ⟨hleft, hdiagnostic⟩ := Outcome.rejected.inj hfed
  exact ⟨hleft.symm, hdiagnostic.symm⟩

/-- Only the outline of a group of examples can be wrong. -/
theorem reject_of_openExamples {opening : KeywordLine} {feature : Feature}
    {container : Container}
    (hfed : assembly.openExamples line opening feature container =
      .rejected left diagnostic) :
    assembly.reject line
        (.misplacedKeyword opening.keyword "outside a Scenario Outline") =
      .rejected left diagnostic := by
  unfold openExamples at hfed
  split at hfed
  · cases hfed
  · exact hfed

/-- A keyword that is rejected is misplaced, unless the feature is still missing. -/
theorem exists_refuses_of_feedKeyword {opening : KeywordLine}
    (hfed : assembly.feedKeyword line opening = .rejected left diagnostic) :
    ∃ cause, assembly.phase.Refuses (.keyword opening) cause ∧
      assembly.reject line cause = .rejected left diagnostic := by
  unfold feedKeyword at hfed
  rcases hclosed : assembly.phase.feature? with _ | closed
  · rw [hclosed] at hfed
    rw [Phase.feature?_eq_none.mp hclosed]
    rcases hrole : opening.role with _ | _ | _ | _ | _ | _ <;> rw [hrole] at hfed
    case feature => cases hfed
    all_goals exact ⟨_, .missing, hfed⟩
  · rw [hclosed] at hfed
    rcases hrole : opening.role with _ | _ | _ | _ | _ | _ <;> rw [hrole] at hfed
    case feature => exact ⟨_, .misplaced, hfed⟩
    case scenario | outline => cases hfed
    all_goals
      rcases hphase : assembly.phase with _ | _ | _ | _ <;>
        simp only [hphase] at hfed
    case background.header | step.body => cases hfed
    case examples.body | examples.examples =>
      exact ⟨_, .misplaced, reject_of_openExamples hfed⟩
    all_goals exact ⟨_, .misplaced, hfed⟩

theorem exists_refuses_of_feedText {text : Text}
    (hfed : assembly.feedText line text = .rejected left diagnostic) :
    ∃ cause, assembly.phase.Refuses (.text text) cause ∧
      assembly.reject line cause = .rejected left diagnostic := by
  unfold feedText at hfed
  rcases hphase : assembly.phase with _ | _ | ⟨_, container, open?⟩ | ⟨_, _, group⟩ <;>
    simp only [hphase] at hfed
  case awaiting => exact ⟨_, .missing, hfed⟩
  case header => cases hfed
  case body =>
    split at hfed
    · cases hfed
    · exact ⟨_, .textBehindStep, hfed⟩
  case examples =>
    split at hfed
    · cases hfed
    · exact ⟨_, .textBehindRow, hfed⟩

theorem exists_refuses_of_feedOpening {opening : FenceLine}
    (hfed : assembly.feedOpening line opening = .rejected left diagnostic) :
    ∃ cause, assembly.phase.Refuses (.fence opening) cause ∧
      assembly.reject line cause = .rejected left diagnostic := by
  unfold feedOpening at hfed
  split at hfed
  · cases hfed
  · cases hfed
  · exact ⟨_, .fence, hfed⟩

theorem widthFault?_eq_some_iff {row : Row} {first? : Option Row} {cause : Cause} :
    row.widthFault? first? = some cause ↔
      ∃ first, first? = some first ∧ first.cells.length ≠ row.cells.length ∧
        cause = .inconsistentWidth first.cells.length row.cells.length first.line := by
  cases first? <;> simp [Row.widthFault?, eq_comm]

/-- A row that is rejected does not decode, or it does not fit and has used up what
was pending. -/
theorem cases_of_addRow {raw : Text} {first? : Option Row} {place : Row → Phase}
    (hfed : assembly.addRow line raw first? place = .rejected left diagnostic) :
    (∃ fault, Cells.decode raw = .error fault ∧
      assembly.reject line (.malformedRow fault.reason) = .rejected left diagnostic) ∨
    ∃ first cells, first? = some first ∧ Cells.decode raw = .ok cells ∧
      first.cells.length ≠ cells.length ∧ left = { assembly with pending := {} } ∧
      diagnostic =
        ⟨line, .inconsistentWidth first.cells.length cells.length first.line⟩ := by
  unfold addRow at hfed
  rcases hcells : Cells.decode raw with fault | cells <;> simp only [hcells] at hfed
  · exact .inl ⟨fault, rfl, hfed⟩
  · split at hfed
    · next cause hfault =>
        obtain ⟨first, hfirst, hwidth, rfl⟩ := widthFault?_eq_some_iff.mp hfault
        obtain ⟨rfl, rfl⟩ := Outcome.rejected.inj hfed
        exact .inr ⟨first, cells, hfirst, rfl, hwidth, rfl, rfl⟩
    · cases hfed

/-- A row that is rejected has no place, or it does not fit. -/
theorem cases_of_feedRow {raw : Text}
    (hfed : assembly.feedRow line raw = .rejected left diagnostic) :
    (∃ cause, assembly.phase.Refuses (.tableRow raw) cause ∧
      assembly.reject line cause = .rejected left diagnostic) ∨
    ∃ first cells, assembly.phase.firstRow? = some first ∧
      Cells.decode raw = .ok cells ∧ first.cells.length ≠ cells.length ∧
      left = { assembly with pending := {} } ∧
      diagnostic =
        ⟨line, .inconsistentWidth first.cells.length cells.length first.line⟩ := by
  unfold feedRow at hfed
  generalize hphase : assembly.phase = phase at hfed ⊢
  rcases phase with _ | _ | ⟨_, _, _ | ⟨step, slot⟩⟩ | _
  case awaiting => cases hfed
  case header | body.none => exact .inl ⟨_, .row, hfed⟩
  case body.some | examples =>
    obtain ⟨fault, hfault, hrejected⟩ |
      ⟨first, cells, hfirst, hcells, hwidth, rfl, rfl⟩ := cases_of_addRow hfed
    · exact .inl ⟨_, .malformed hfault, hrejected⟩
    · exact .inr ⟨first, cells, hfirst, hcells, hwidth, by rw [← hphase], rfl⟩

/-- What has no place leaves the assembly where the last line put it. -/
theorem exists_refusal_of_reject {kind : LineKind} {cause : Cause}
    (hrefuses : assembly.phase.Refuses kind cause)
    (hfed : assembly.reject assembly.lastLine cause = .rejected left diagnostic) :
    ∃ cause, assembly.Refusal ⟨assembly.lastLine, kind⟩ left cause ∧
      diagnostic = ⟨assembly.lastLine, cause⟩ := by
  obtain ⟨rfl, rfl⟩ := eq_of_reject_eq_rejected hfed
  exact ⟨cause, .noPlace hrefuses, rfl⟩

/-- A token that is rejected outside doc strings has no place or does not fit. -/
theorem exists_refusal_of_feedOutside {kind : LineKind}
    (hdoc : assembly.phase.doc? = none)
    (hfed : assembly.feedOutside ⟨assembly.lastLine, kind⟩ =
      .rejected left diagnostic) :
    ∃ cause, assembly.Refusal ⟨assembly.lastLine, kind⟩ left cause ∧
      diagnostic = ⟨assembly.lastLine, cause⟩ := by
  cases kind with
  | blank | comment | tags => cases hfed
  | keyword opening =>
      obtain ⟨cause, hrefuses, hrejected⟩ := exists_refuses_of_feedKeyword hfed
      exact exists_refusal_of_reject hrefuses hrejected
  | text text =>
      obtain ⟨cause, hrefuses, hrejected⟩ := exists_refuses_of_feedText hfed
      exact exists_refusal_of_reject hrefuses hrejected
  | fence opening =>
      obtain ⟨cause, hrefuses, hrejected⟩ := exists_refuses_of_feedOpening hfed
      exact exists_refusal_of_reject hrefuses hrejected
  | tableRow raw =>
      obtain ⟨cause, hrefuses, hrejected⟩ |
        ⟨first, cells, hfirst, hcells, hwidth, rfl, rfl⟩ := cases_of_feedRow hfed
      · exact exists_refusal_of_reject hrefuses hrejected
      · exact ⟨_, .width hfirst rfl hcells hwidth, rfl⟩
  | content text =>
      rcases hphase : assembly.phase with _ | _ | _ | _ <;>
        simp only [feedOutside, hphase] at hfed
      case awaiting => cases hfed
      all_goals
        have hstarted : assembly.phase ≠ .awaiting := by
          rw [hphase]
          exact nofun
        exact exists_refusal_of_reject (.content hstarted hdoc) hfed

/-- A token that is rejected in a doc string is a fence of the other kind or no line
of a doc string at all. -/
theorem exists_refusal_of_feedInDoc {feature : Feature} {container : Container}
    {step : Step} {doc : OpenDoc} {kind : LineKind}
    (hphase : assembly.phase = .body feature container (some ⟨step, .doc doc⟩))
    (hfed : assembly.feedInDoc feature container step doc ⟨assembly.lastLine, kind⟩ =
      .rejected left diagnostic) :
    ∃ cause, assembly.Refusal ⟨assembly.lastLine, kind⟩ left cause ∧
      diagnostic = ⟨assembly.lastLine, cause⟩ := by
  have hdoc : assembly.phase.doc? = some doc := by rw [hphase]; rfl
  unfold feedInDoc at hfed
  cases kind with
  | content => cases hfed
  | fence closing =>
      simp only at hfed
      split at hfed
      · cases hfed
      · next hfence =>
          obtain ⟨rfl, rfl⟩ := Outcome.rejected.inj hfed
          exact ⟨_, .otherFence hphase rfl hfence, rfl⟩
  | _ => exact exists_refusal_of_reject (.inDoc hdoc nofun nofun) hfed

/-- Where the last line stood before does not matter to a refusal. -/
theorem refusal_of_withLastLine {token : Token} {last : Nat} {cause : Cause}
    (hrefusal : { assembly with lastLine := last }.Refusal token left cause) :
    assembly.Refusal token left cause := by
  cases hrefusal with
  | noPlace hrefuses => exact .noPlace hrefuses
  | width hfirst hkind hcells hwidth => exact .width hfirst hkind hcells hwidth
  | otherFence hphase hkind hfence => exact .otherFence hphase hkind hfence

/-- The refusals are all that a rejected token can do, and the diagnostic names the
line of the token. -/
theorem exists_refusal_of_feed {token : Token}
    (hfed : assembly.feed token = .rejected left diagnostic) :
    ∃ cause, assembly.Refusal token left cause ∧ diagnostic = ⟨token.line, cause⟩ := by
  let reached : Assembly := { assembly with lastLine := token.line }
  have hrefusal : ∃ cause, reached.Refusal token left cause ∧
      diagnostic = ⟨token.line, cause⟩ := by
    rcases hdoc : assembly.phase.doc? with _ | doc
    · rw [feed_of_doc?_eq_none token hdoc] at hfed
      have hreached : reached.phase.doc? = none := hdoc
      exact exists_refusal_of_feedOutside hreached hfed
    · obtain ⟨feature, container, step, hphase⟩ := Phase.doc?_eq_some.mp hdoc
      rw [feed_of_doc token hphase] at hfed
      have hreached :
          reached.phase = .body feature container (some ⟨step, .doc doc⟩) := hphase
      exact exists_refusal_of_feedInDoc hreached hfed
  obtain ⟨cause, hrefusal, rfl⟩ := hrefusal
  exact ⟨cause, refusal_of_withLastLine hrefusal, rfl⟩

/-- A refusal leaves the phase alone or drops the open doc string. -/
theorem Refusal.sound {token : Token} {cause : Cause}
    (hrefusal : assembly.Refusal token left cause) (hsound : assembly.phase.Sound) :
    left.phase.Sound := by
  cases hrefusal with
  | noPlace | width => exact hsound
  | otherFence hphase =>
      rw [hphase] at hsound
      obtain ⟨hsorted, hbare, hgroups, -⟩ := hsound
      exact ⟨hsorted, hbare, hgroups, nofun⟩

/-- What becomes of the assembly is sound, whether the token is accepted or not. -/
theorem sound_feed (token : Token) (hsound : assembly.phase.Sound) :
    (assembly.feed token).assembly.phase.Sound := by
  rcases hfed : assembly.feed token with next | ⟨left, diagnostic⟩
  · exact (feed_eq_accepted_iff.mp hfed).sound hsound
  · obtain ⟨cause, hrefusal, -⟩ := exists_refusal_of_feed hfed
    exact hrefusal.sound hsound

/-- What is not a fence opens no doc string, whether it is accepted or not. -/
theorem doc?_of_feed {token : Token} (hdoc : assembly.phase.doc? = none)
    (hfence : ∀ opening, token.kind ≠ .fence opening) :
    (assembly.feed token).assembly.phase.doc? = none := by
  cases hfed : assembly.feed token with
  | accepted next =>
      cases feed_eq_accepted_iff.mp hfed with
      | annotate => exact hdoc
      | opens hopens => exact hopens.doc?_next_eq_none
      | extend hextends => exact hextends.doc?_next_eq_none hdoc hfence
  | rejected left diagnostic =>
      obtain ⟨cause, hrefusal, -⟩ := exists_refusal_of_feed hfed
      cases hrefusal with
      | noPlace | width => exact hdoc
      | otherFence => rfl

end Assembly

end Gherkin
