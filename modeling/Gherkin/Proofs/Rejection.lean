import Gherkin.Proofs.Consistency

/-!
# What a rejected token leaves behind

A token that is rejected has been looked at, and some work may have been done for it.
The row that does not fit its table has been given the pending comments and tags, and
the fence that does not match has been preceded by taking the doc string out of its
slot.  These two leave a trace.  All other tokens are rejected before anything is taken,
closed or opened, so that whatever comes next finds the workbench as if they had not
been there.
-/

namespace Gherkin

/-- A token that is rejected for this cause leaves no trace but its line. -/
def Cause.IsTraceless : Cause → Prop
  | inconsistentWidth _ _ _ | unterminatedDocString _ => False
  | _ => True

namespace Workbench

/-- What a rejection for the given cause leaves of a workbench that has reached the line
of the token. -/
def leftBy (bench : Workbench) : Cause → Workbench
  | .inconsistentWidth _ _ _ => { bench with pending := {} }
  | .unterminatedDocString _ => { bench with slots.doc? := none }
  | _ => bench

theorem leftBy_of_isTraceless {cause : Cause} (hcause : cause.IsTraceless)
    (bench : Workbench) : bench.leftBy cause = bench := by
  cases cause with
  | inconsistentWidth | unterminatedDocString => exact hcause.elim
  | _ => rfl

/-- Only the slot of the doc string can be emptied. -/
theorem slots_leftBy (bench : Workbench) (cause : Cause) :
    (bench.leftBy cause).slots =
      { bench.slots with doc? := (bench.leftBy cause).slots.doc? } := by
  cases cause <;> rfl

/-- A token at the line is accepted, or its rejection leaves what the cause says. -/
def Result.Leaves (result : Result) (bench : Workbench) (line : Nat) : Prop :=
  ∀ diagnostic ∈ result.2,
    result.1 = bench.leftBy diagnostic.cause ∧ diagnostic.line = line

variable {bench other : Workbench} {slots : Slots} {line : Nat} {cause : Cause}

theorem leaves_stay : (other.stay slots).Leaves bench line := nofun

theorem leaves_enter : (other.enter slots).Leaves bench line := nofun

theorem leaves_reject (hleft : other = bench.leftBy cause) :
    (other.reject line cause).Leaves bench line := by
  intro diagnostic hdiagnostic
  obtain rfl := Option.some.inj hdiagnostic
  exact ⟨hleft, rfl⟩

theorem leaves_openExamples {opening : KeywordLine} :
    (bench.openExamples line opening).Leaves bench line := by
  unfold openExamples
  split
  · exact leaves_enter
  · exact leaves_reject rfl

theorem leaves_feedKeyword {opening : KeywordLine} :
    (bench.feedKeyword line opening).Leaves bench line := by
  unfold feedKeyword
  rcases bench.slots.stage with _ | _ | _ | _ <;>
    rcases opening.role with _ | _ | _ | _ | _ | _
  case awaiting.feature | feature.background | feature.scenario | feature.outline |
      container.scenario | container.outline | container.step | examples.scenario |
      examples.outline =>
    exact leaves_enter
  case container.examples | examples.examples => exact leaves_openExamples
  all_goals exact leaves_reject rfl

theorem leaves_feedText {text : Text} :
    (bench.feedText line text).Leaves bench line := by
  unfold feedText
  dsimp only
  split
  · exact leaves_reject rfl
  · split <;> exact leaves_stay
  · split
    · exact leaves_reject rfl
    · exact leaves_stay
  · split
    · exact leaves_reject rfl
    · exact leaves_stay

/-- A draft that rejects a row has a first one already. -/
theorem exists_of_push_eq_error {draft : TableDraft} {row : Row}
    (hpush : draft.push row = .error cause) :
    draft.first?.isSome = true ∧
      ∃ expected found firstLine,
        cause = .inconsistentWidth expected found firstLine := by
  unfold TableDraft.push at hpush
  rcases hfirst : draft.first? with _ | ⟨expected, firstLine⟩ <;>
    simp only [hfirst] at hpush
  · cases hpush
  · split at hpush
    · cases hpush
    · exact ⟨rfl, _, _, _, (Except.error.inj hpush).symm⟩

/-- A draft that rejects a row goes back into the slot that it comes from. -/
theorem leaves_pushRow {row : Row} {draft : TableDraft} {fill : TableDraft → Slots}
    (hfill : draft.first?.isSome = true → fill draft = bench.slots) :
    (bench.pushRow row draft fill).Leaves bench row.line := by
  unfold pushRow
  rcases hpush : draft.push row with cause | next
  · obtain ⟨hfirst, expected, found, firstLine, rfl⟩ := exists_of_push_eq_error hpush
    refine leaves_reject ?_
    rw [hfill hfirst]
    rfl
  · exact leaves_enter

theorem leaves_pushGroupRow {row : Row} :
    (bench.pushGroupRow row).Leaves bench row.line := by
  unfold pushGroupRow
  split
  · exact leaves_enter
  · next group draft hexamples =>
      refine leaves_pushRow fun _ => ?_
      rw [Slots.withGroup, ← hexamples]

/-- The table of a step is made for its first row, which is never rejected. -/
theorem leaves_pushStepRow {row : Row} :
    (bench.pushStepRow row).Leaves bench row.line := by
  refine leaves_pushRow fun hfirst => ?_
  rcases htable : bench.slots.table? with _ | draft
  · rw [htable] at hfirst
    cases hfirst
  · rw [Option.getD_some, Slots.withTable, ← htable]

theorem leaves_addRow {raw : Text} {push : Row → Result}
    (hpush : ∀ row : Row, (push row).Leaves bench row.line) :
    (bench.addRow line raw push).Leaves bench line := by
  unfold addRow
  split
  · exact leaves_reject rfl
  · exact hpush _

theorem leaves_feedRow {raw : Text} : (bench.feedRow line raw).Leaves bench line := by
  unfold feedRow
  split
  · exact leaves_stay
  · exact leaves_addRow fun _ => leaves_pushGroupRow
  · exact leaves_addRow fun _ => leaves_pushStepRow
  · exact leaves_reject rfl

theorem leaves_feedOpening {opening : FenceLine} :
    (bench.feedOpening line opening).Leaves bench line := by
  unfold feedOpening
  split
  · exact leaves_stay
  · exact leaves_stay
  · exact leaves_reject rfl

theorem leaves_feedInDoc (token : Token) :
    (bench.feedInDoc token).Leaves bench token.line := by
  unfold feedInDoc
  dsimp only
  cases token.kind with
  | content => dsimp only; split <;> exact leaves_stay
  | fence closing =>
      dsimp only
      split
      · exact leaves_stay
      · split
        · split <;> exact leaves_stay
        · exact leaves_reject rfl
  | _ => exact leaves_reject rfl

theorem leaves_feedOutside (token : Token) :
    (bench.feedOutside token).Leaves bench token.line := by
  unfold feedOutside
  cases token.kind with
  | blank | comment | tags => exact leaves_stay
  | keyword => exact leaves_feedKeyword
  | text => exact leaves_feedText
  | tableRow => exact leaves_feedRow
  | fence => exact leaves_feedOpening
  | content =>
      dsimp only
      split
      · exact leaves_stay
      · exact leaves_reject rfl

/-- Whatever a workbench holds, a token that it rejects leaves what the cause says. -/
theorem leaves_feed (bench : Workbench) (token : Token) :
    (bench.feed token).Leaves { bench with lastLine := token.line } token.line := by
  unfold feed
  dsimp only
  split
  · exact leaves_feedInDoc token
  · exact leaves_feedOutside token

end Workbench

/-! ## Assemblies -/

/-- The phase without the doc string that is open in it. -/
def Phase.dropDoc : Phase → Phase
  | body feature container (some ⟨step, .doc _⟩) =>
      .body feature container (some ⟨step, .idle⟩)
  | phase => phase

/-- What a rejection for the given cause leaves of an assembly that has reached the line
of the token. -/
def Assembly.leftBy (assembly : Assembly) : Cause → Assembly
  | .inconsistentWidth _ _ _ => { assembly with pending := {} }
  | .unterminatedDocString _ => { assembly with phase := assembly.phase.dropDoc }
  | _ => assembly

theorem Phase.Refuses.isTraceless {phase : Phase} {kind : LineKind} {cause : Cause}
    (hrefuses : phase.Refuses kind cause) : cause.IsTraceless := by
  cases hrefuses <;> trivial

theorem Assembly.leftBy_of_isTraceless {cause : Cause} (hcause : cause.IsTraceless)
    (assembly : Assembly) : assembly.leftBy cause = assembly := by
  cases cause with
  | inconsistentWidth | unterminatedDocString => exact hcause.elim
  | _ => rfl

/-- Refusals leave of an assembly what the cause says. -/
theorem Assembly.Refusal.left_eq {assembly left : Assembly} {token : Token}
    {cause : Cause}
    (hrefusal : assembly.Refusal token left cause) :
    left = ({ assembly with lastLine := token.line } : Assembly).leftBy cause := by
  cases hrefusal with
  | noPlace hrefuses => exact (leftBy_of_isTraceless hrefuses.isTraceless _).symm
  | width => rfl
  | otherFence hphase =>
      rw [leftBy, hphase]
      rfl

/-- Only what is rejected has a diagnostic. -/
theorem Outcome.exists_eq_rejected {outcome : Outcome} {diagnostic : Diagnostic}
    (hdiagnostic : outcome.diagnostic? = some diagnostic) :
    ∃ left, outcome = .rejected left diagnostic := by
  cases outcome with
  | accepted next => cases hdiagnostic
  | rejected left reported => exact ⟨left, congrArg _ (Option.some.inj hdiagnostic)⟩

/-- An assembly that rejects a token is left with what the cause says. -/
theorem Assembly.left_eq_of_rejected {assembly left : Assembly} {token : Token}
    {diagnostic : Diagnostic} (hfed : assembly.feed token = .rejected left diagnostic) :
    left = ({ assembly with lastLine := token.line } : Assembly).leftBy
      diagnostic.cause := by
  obtain ⟨cause, hrefusal, rfl⟩ := exists_refusal_of_feed hfed
  exact hrefusal.left_eq

/-! ## Going on -/

/-- The line of the last token is forgotten when the next one comes. -/
theorem Workbench.feedOn_withLastLine (bench : Workbench) (line : Nat) (next : Token)
    (tokens : List Token) :
    ({ bench with lastLine := line } : Workbench).feedOn (next :: tokens) =
      bench.feedOn (next :: tokens) := rfl

/-- At the end of the document it only says where something is missing. -/
theorem Workbench.finish_withLastLine (bench : Workbench) (line : Nat) :
    ({ bench with lastLine := line } : Workbench).finish =
      bench.finish.mapError fun missing => { missing with line := max line 1 } := by
  unfold finish
  dsimp only
  split
  · rfl
  · split
    · rfl
    · split <;> rfl

/-- A doc string is found unterminated while it is open, by a fence of the other kind.
-/
theorem Workbench.Holds.exists_doc_of_rejected {bench : Workbench}
    {assembly left : Assembly} {token : Token} {diagnostic : Diagnostic}
    {openedAt : Nat}
    (hholds : bench.Holds assembly)
    (hfed : assembly.feed token = .rejected left diagnostic)
    (hcause : diagnostic.cause = .unterminatedDocString openedAt) :
    ∃ doc closing, bench.slots.doc? = some doc ∧ doc.line = openedAt ∧
      token.kind = .fence closing ∧ closing.fence ≠ doc.opening.fence := by
  obtain ⟨cause, hrefusal, rfl⟩ := Assembly.exists_refusal_of_feed hfed
  obtain rfl : cause = _ := hcause
  obtain ⟨phase, hslots, rfl⟩ := hholds
  generalize hrejected : Cause.unterminatedDocString openedAt = cause at hrefusal
  cases hrefusal with
  | noPlace hrefuses =>
      have htraceless := hrefuses.isTraceless
      rw [← hrejected] at htraceless
      exact htraceless.elim
  | width => cases hrejected
  | @otherFence feature container step doc closing hphase hkind hfence =>
      have hdoc : bench.slots.doc? = some doc := by
        rw [hslots.doc?_eq, show phase = _ from hphase]
        rfl
      exact ⟨doc, closing, hdoc, (Cause.unterminatedDocString.inj hrejected).symm,
        hkind, hfence⟩

/-- Whatever tokens a workbench has been given before, a token that it rejects leaves it
as it was but for the last line.  Only a row of another width empties what is pending,
and only a fence of the other kind empties a slot, that of the doc string.  Behind any
other rejection tokens and the end of the document come to the same as if the token had
not been there, up to the line that the end is reported at.  An assembly rejects the
same tokens and is left alike. -/
theorem Workbench.feed_rejected (uri : Text) (policy : TrailingComments)
    (front : List Token) (token : Token) (diagnostic : Diagnostic) :
    let bench := ((start uri policy).feedOn front).1
    let assembly := ((Assembly.start uri policy).feedOn front).1
    let left := (bench.feed token).1
    let leftAssembly := (assembly.feed token).assembly
    (bench.feed token).2 = some diagnostic →
      diagnostic.line = token.line ∧
        left = ({ bench with lastLine := token.line } : Workbench).leftBy
          diagnostic.cause ∧
        left.slots = { bench.slots with doc? := left.slots.doc? } ∧
        (∀ openedAt, diagnostic.cause = .unterminatedDocString openedAt →
          ∃ doc closing, bench.slots.doc? = some doc ∧ doc.line = openedAt ∧
            token.kind = .fence closing ∧ closing.fence ≠ doc.opening.fence) ∧
        (diagnostic.cause.IsTraceless →
          (∀ next tokens, left.feedOn (next :: tokens) =
            bench.feedOn (next :: tokens)) ∧
            left.finish = bench.finish.mapError fun missing =>
              { missing with line := max token.line 1 }) ∧
        assembly.feed token =
          .rejected
            (({ assembly with lastLine := token.line } : Assembly).leftBy
              diagnostic.cause)
            diagnostic ∧
        leftAssembly.finish = left.finish ∧
        ∀ tokens, (leftAssembly.feedOn tokens).2 = (left.feedOn tokens).2 := by
  intro bench assembly left leftAssembly hfed
  obtain ⟨hleft, hline⟩ := leaves_feed bench token diagnostic hfed
  have hholds : bench.Holds assembly := ((holds_start uri policy).feedOn front).1
  have hmatches := hholds.feed token
  obtain ⟨rejected, hrejected⟩ :=
    Outcome.exists_eq_rejected (hmatches.diagnostic.symm.trans hfed)
  refine ⟨hline, hleft, ?_, ?_, ?_, ?_, hmatches.holds.finish_eq.symm, fun tokens =>
    (hmatches.holds.feedOn tokens).2.symm⟩
  · rw [show left = _ from hleft]
    exact slots_leftBy _ _
  · exact fun openedAt => hholds.exists_doc_of_rejected hrejected
  · intro htraceless
    rw [leftBy_of_isTraceless htraceless] at hleft
    rw [show left = _ from hleft]
    exact ⟨bench.feedOn_withLastLine token.line, bench.finish_withLastLine token.line⟩
  · rw [hrejected, Assembly.left_eq_of_rejected hrejected]

/-- The tokens of a table below a step, with a comment behind it. -/
def tabularTokens : List Token :=
  [⟨1, .keyword ⟨.feature, "Feature".toList, "F".toList⟩⟩,
    ⟨2, .keyword ⟨.scenario, "Scenario".toList, "S".toList⟩⟩,
    ⟨3, .keyword ⟨.step .given, "Given".toList, "x".toList⟩⟩,
    ⟨4, .tableRow "| a |".toList⟩, ⟨5, .comment "c".toList⟩]

theorem Workbench.feed_rejected_tabularTokens :
    let bench := ((start "u".toList .attach).feedOn tabularTokens).1
    let text : Token := ⟨6, .text "t".toList⟩
    let wide : Token := ⟨6, .tableRow "| a | b |".toList⟩
    bench.pending = ⟨["c".toList], []⟩ ∧
      bench.feed text =
        ({ bench with lastLine := 6 },
          some ⟨6, .unexpectedContent "text" "after a step"⟩) ∧
      bench.feed wide =
        ({ bench with lastLine := 6, pending := {} },
          some ⟨6, .inconsistentWidth 1 2 4⟩) := by
  intro bench text wide
  have htext : (bench.feed text).2 =
      some ⟨6, .unexpectedContent "text" "after a step"⟩ := rfl
  have hwide : (bench.feed wide).2 = some ⟨6, .inconsistentWidth 1 2 4⟩ := rfl
  have hleftText := (feed_rejected "u".toList .attach tabularTokens text _ htext).2.1
  have hleftWide := (feed_rejected "u".toList .attach tabularTokens wide _ hwide).2.1
  exact ⟨rfl, Prod.ext hleftText htext, Prod.ext hleftWide hwide⟩

end Gherkin
