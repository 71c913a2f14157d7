import Gherkin.Proofs.Cells
import Gherkin.Proofs.Passages
import Mathlib.Data.List.Pairwise

/-!
# Tables

A row is compared with the first row of its table.  A group of examples is one table.
The rows of a step are one table as long as no doc string comes between them: a doc
string ends the table, and the rows behind it are compared among themselves.  So two
rows of one construct that differ in width have a doc string between them.  The rows
of a step are all equally wide exactly if no doc string stands between two rows that
are not.
-/

namespace Gherkin

/-- A doc string stands between two rows. -/
def Row.Parted (docs : List DocString) (above below : Row) : Prop :=
  ∃ doc ∈ docs, above.line < doc.line ∧ doc.line < below.line

/-- Rows are equally wide unless a doc string parts them. -/
def Heading.IsTabular (heading : Heading) : Prop :=
  heading.rows.Pairwise fun above below =>
    above.cells.length = below.cells.length ∨ Row.Parted heading.docs above below

/-- Rows as wide as those below them are all equally wide. -/
theorem Row.width_eq_of_pairwise {rows : List Row}
    (hrows : rows.Pairwise fun above below => above.cells.length = below.cells.length) :
    ∀ left ∈ rows, ∀ right ∈ rows, left.cells.length = right.cells.length := by
  have : Std.Symm fun above below : Row => above.cells.length = below.cells.length :=
    ⟨fun _ _ heq => heq.symm⟩
  exact hrows.forall_of_forall fun _ _ => rfl

theorem Row.Parted.concat {docs : List DocString} {above below : Row}
    (hparted : Row.Parted docs above below) (doc : DocString) :
    Row.Parted (docs ++ [doc]) above below := by
  obtain ⟨other, hother, hlines⟩ := hparted
  exact ⟨other, List.mem_append_left _ hother, hlines⟩

namespace Heading.IsTabular

variable {heading : Heading}

theorem withDescription (htabular : heading.IsTabular) (description : Text) :
    Heading.IsTabular { heading with description := description } :=
  htabular

theorem concat_doc (htabular : heading.IsTabular) (doc : DocString) :
    Heading.IsTabular { heading with docs := heading.docs ++ [doc] } :=
  List.Pairwise.imp (fun hrows => hrows.imp_right fun hparted => hparted.concat doc)
    htabular

theorem concat_row (htabular : heading.IsTabular) {row : Row}
    (hrow : ∀ above ∈ heading.rows,
      above.cells.length = row.cells.length ∨ Row.Parted heading.docs above row) :
    Heading.IsTabular { heading with rows := heading.rows ++ [row] } := by
  refine List.pairwise_append.mpr ⟨htabular, List.pairwise_singleton _ _, ?_⟩
  intro above habove below hbelow
  rw [List.mem_singleton.mp hbelow]
  exact hrow above habove

/-- Without doc strings all rows make up one table. -/
theorem width_eq (htabular : heading.IsTabular) (hdocs : heading.docs = []) :
    ∀ left ∈ heading.rows, ∀ right ∈ heading.rows,
      left.cells.length = right.cells.length := by
  have hparted (above below : Row) : ¬ Row.Parted heading.docs above below := by
    rintro ⟨doc, hdoc, -⟩
    rw [hdocs] at hdoc
    cases hdoc
  apply Row.width_eq_of_pairwise
  exact List.Pairwise.imp (fun hrows => hrows.resolve_right (hparted _ _)) htabular

end Heading.IsTabular

/-! ## The table of the open step -/

/-- The line of the doc string that the slot holds. -/
def Slot.docLine? : Slot → Option Nat
  | .doc opened => some opened.line
  | _ => none

/-- The lines of all doc strings of the step, the open one included. -/
def OpenStep.docLines (openStep : OpenStep) : List Nat :=
  openStep.step.docs.map DocString.line ++ openStep.slot.docLine?.toList

/-- Everything in the open step stands up to the line `last`, and each of its rows is
as wide as the table that goes on or has a doc string behind it. -/
structure OpenStep.Follows (openStep : OpenStep) (last : Nat) : Prop where
  rows_le : ∀ row ∈ openStep.step.rows, row.line ≤ last
  docLines_le : ∀ line ∈ openStep.docLines, line ≤ last
  row_cases : ∀ row ∈ openStep.step.rows,
    (∃ first ∈ openStep.slot.first?, first.cells.length = row.cells.length) ∨
      ∃ line ∈ openStep.docLines, row.line < line

theorem Slot.docLine?_of_isClosed {slot : Slot} (hslot : slot.IsClosed) :
    slot.docLine? = none := by
  cases slot with
  | idle | table => rfl
  | doc => exact hslot.elim

/-- The step that is open. -/
def Phase.openStep? : Phase → Option OpenStep
  | body _ _ open? => open?
  | _ => none

namespace OpenStep.Follows

variable {step : Step} {slot : Slot} {last line : Nat}

theorem mono {openStep : OpenStep} (hfollows : openStep.Follows last)
    (hline : last ≤ line) : openStep.Follows line where
  rows_le row hrow := (hfollows.rows_le row hrow).trans hline
  docLines_le docLine hdocLine := (hfollows.docLines_le docLine hdocLine).trans hline
  row_cases := hfollows.row_cases

theorem of_opened {openStep : OpenStep} (hrows : openStep.step.rows = [])
    (hdocs : openStep.docLines = []) : openStep.Follows line where
  rows_le := by simp [hrows]
  docLines_le := by simp [hdocs]
  row_cases := by simp [hrows]

/-- A new row is as wide as every row above it that no doc string parts from it. -/
theorem row_cases_concat (hfollows : OpenStep.Follows ⟨step, slot⟩ last)
    (hslot : slot.IsClosed) {row : Row} (hline : last < row.line)
    (hwidth : ∀ first ∈ slot.first?, first.cells.length = row.cells.length) :
    ∀ above ∈ step.rows,
      above.cells.length = row.cells.length ∨ Row.Parted step.docs above row := by
  intro above habove
  rcases hfollows.row_cases above habove with ⟨first, hfirst, heq⟩ |
    ⟨docLine, hdoc, hlt⟩
  · exact .inl (heq.symm.trans (hwidth first hfirst))
  · have hlast := hfollows.docLines_le docLine hdoc
    rw [docLines, Slot.docLine?_of_isClosed hslot, Option.toList_none,
      List.append_nil] at hdoc
    obtain ⟨doc, hmem, rfl⟩ := List.mem_map.mp hdoc
    exact .inr ⟨doc, hmem, hlt, by omega⟩

/-- A row goes on with the table, or begins one. -/
theorem concat_row (hfollows : OpenStep.Follows ⟨step, slot⟩ last)
    (hslot : slot.IsClosed) {row : Row} (hline : last < row.line)
    (hwidth : ∀ first ∈ slot.first?, first.cells.length = row.cells.length) :
    OpenStep.Follows
      ⟨{ step with rows := step.rows ++ [row] }, .table (slot.first?.getD row)⟩
      row.line := by
  have hdocLines :
      OpenStep.docLines ⟨{ step with rows := step.rows ++ [row] },
        .table (slot.first?.getD row)⟩ = OpenStep.docLines ⟨step, slot⟩ := by
    rw [docLines, docLines, Slot.docLine?_of_isClosed hslot]
    rfl
  have hmono := hfollows.mono hline.le
  refine ⟨?_, hdocLines ▸ hmono.docLines_le, ?_⟩
  · intro other hother
    rcases List.mem_append.mp hother with hother | hother
    · exact hmono.rows_le other hother
    · rw [List.mem_singleton.mp hother]
  · intro other hother
    rw [hdocLines]
    rcases List.mem_append.mp hother with hother | hother
    · refine (hfollows.row_cases other hother).imp_left ?_
      rintro ⟨first, hfirst, heq⟩
      exact ⟨first, by rw [Option.mem_def.mp hfirst]; rfl, heq⟩
    · rw [List.mem_singleton.mp hother]
      refine .inl ⟨_, rfl, ?_⟩
      rcases hfirst : slot.first? with _ | first
      · rfl
      · exact hwidth first hfirst

/-- A fence that opens a doc string ends the table. -/
theorem open_doc (hfollows : OpenStep.Follows ⟨step, slot⟩ last)
    (hslot : slot.IsClosed) (hline : last < line) (opening : FenceLine) :
    OpenStep.Follows ⟨step, .doc { line := line, opening := opening }⟩ line := by
  have hdocLines :
      OpenStep.docLines ⟨step, .doc { line := line, opening := opening }⟩ =
        OpenStep.docLines ⟨step, slot⟩ ++ [line] := by
    rw [docLines, docLines, Slot.docLine?_of_isClosed hslot, Option.toList_none,
      List.append_nil]
    rfl
  have hmono := hfollows.mono hline.le
  refine ⟨hmono.rows_le, ?_, ?_⟩
  · intro docLine hdocLine
    rw [hdocLines] at hdocLine
    rcases List.mem_append.mp hdocLine with hdocLine | hdocLine
    · exact hmono.docLines_le docLine hdocLine
    · rw [List.mem_singleton.mp hdocLine]
  · intro row hrow
    rw [hdocLines]
    exact .inr ⟨line, by simp, (hfollows.rows_le row hrow).trans_lt hline⟩

theorem push_doc {doc : OpenDoc} (hfollows : OpenStep.Follows ⟨step, .doc doc⟩ last)
    (text : Text) : OpenStep.Follows ⟨step, .doc (doc.push text)⟩ last where
  rows_le := hfollows.rows_le
  docLines_le := hfollows.docLines_le
  row_cases := hfollows.row_cases

/-- A doc string that is closed still ends the table above it. -/
theorem close_doc {doc : OpenDoc} (hfollows : OpenStep.Follows ⟨step, .doc doc⟩ last) :
    OpenStep.Follows ⟨{ step with docs := step.docs ++ [doc.close] }, .idle⟩ last := by
  have hdocLines :
      OpenStep.docLines ⟨{ step with docs := step.docs ++ [doc.close] }, .idle⟩ =
        OpenStep.docLines ⟨step, .doc doc⟩ := by
    rw [docLines, docLines, List.map_append, List.append_assoc]
    rfl
  exact ⟨hfollows.rows_le, hdocLines ▸ hfollows.docLines_le,
    hdocLines ▸ hfollows.row_cases⟩

end OpenStep.Follows

/-! ## What a move does to the tables -/

namespace Phase

variable {node : Node} {line last : Nat} {kind : LineKind} {phase next : Phase}

/-- Everything that was read up to the line `last` makes up tables. -/
structure HoldsTables (phase : Phase) (last : Nat) : Prop where
  isTabular : ∀ heading ∈ phase.headings, heading.IsTabular
  follows : ∀ openStep ∈ phase.openStep?, openStep.Follows last

theorem isTabular_of_headings {front : List Heading} {heading changed : Heading}
    (htabular : ∀ heading ∈ phase.headings, heading.IsTabular)
    (hheadings : phase.headings = front ++ [heading])
    (hnext : next.headings = front ++ [changed])
    (hchanged : heading.IsTabular → changed.IsTabular) :
    ∀ heading ∈ next.headings, heading.IsTabular := by
  rw [hheadings, List.forall_mem_append, List.forall_mem_singleton] at htabular
  rw [hnext, List.forall_mem_append, List.forall_mem_singleton]
  exact ⟨htabular.1, hchanged htabular.2⟩

theorem HoldsTables.mono (htables : phase.HoldsTables last) (hline : last ≤ line) :
    phase.HoldsTables line where
  isTabular := htables.isTabular
  follows openStep hopen := (htables.follows openStep hopen).mono hline

theorem HoldsTables.body_some {feature : Feature} {container : Container}
    {openStep : OpenStep}
    (htabular : ∀ heading ∈ (body feature container (some openStep)).headings,
      heading.IsTabular) (hfollows : openStep.Follows last) :
    (body feature container (some openStep)).HoldsTables last where
  isTabular := htabular
  follows _ hopen := Option.some.inj hopen ▸ hfollows

/-- A construct that a keyword opens holds no row yet. -/
theorem Opens.holdsTables_keyword {opening : KeywordLine} (hsound : phase.Sound)
    (htables : phase.HoldsTables last)
    (hopens : phase.Opens node (.keyword opening) next) : next.HoldsTables line where
  isTabular := by
    rw [hopens.headings_keyword hsound, List.forall_mem_append,
      List.forall_mem_singleton]
    exact ⟨htables.isTabular, List.Pairwise.nil⟩
  follows openStep hopen := by
    cases hopens with
    | step =>
        rw [← Option.some.inj hopen]
        exact .of_opened rfl rfl
    | _ => cases hopen

theorem Opens.holdsTables (hsound : phase.Sound) (htables : phase.HoldsTables last)
    (hline : last < node.line) (hopens : phase.Opens node kind next) :
    next.HoldsTables node.line := by
  have hnext := hopens.sound hsound
  rcases hkind : kind with opening | _ | _ | raw | _ | _ | _ | _ <;>
    rw [hkind] at hopens
  case keyword => exact hopens.holdsTables_keyword hsound htables
  case tableRow =>
    cases hopens with
    | stepRow hslot _ hwidth =>
        have hfollows := htables.follows _ rfl
        refine .body_some ?_ (hfollows.concat_row hslot hline hwidth)
        refine isTabular_of_headings htables.isTabular (headings_body_some hsound)
          (headings_body_some hnext) fun htabular => ?_
        exact htabular.concat_row (hfollows.row_cases_concat hslot hline hwidth)
    | @groupRow _ _ group _ _ _ hwidth =>
        refine ⟨isTabular_of_headings htables.isTabular (headings_examples hsound)
          (headings_examples hnext) fun htabular => ?_, nofun⟩
        refine htabular.concat_row fun above habove => .inl ?_
        obtain ⟨first, rest, hrows⟩ :=
          List.exists_cons_of_ne_nil (List.ne_nil_of_mem habove)
        have hrows : group.heading.rows = first :: rest := hrows
        have hfirst : first ∈ group.heading.rows := hrows ▸ List.mem_cons_self
        have heven := htabular.width_eq rfl above habove first hfirst
        exact heven.trans (hwidth first (congrArg List.head? hrows))
  all_goals cases hopens

theorem Extends.holdsTables_text {said : Text} (hsound : phase.Sound)
    (htables : phase.HoldsTables last)
    (hextends : phase.Extends line (.text said) next) :
    next.HoldsTables line where
  isTabular := by
    obtain ⟨front, heading, hheadings, hnext⟩ := hextends.headings_text hsound
    exact isTabular_of_headings htables.isTabular hheadings hnext
      fun htabular => htabular.withDescription _
  follows openStep hopen := by
    cases hextends with
    | pass hkind => exact hkind.elim
    | featureText | containerText | groupText => cases hopen

theorem Extends.holdsTables (hsound : phase.Sound) (htables : phase.HoldsTables last)
    (hline : last < line) (hextends : phase.Extends line kind next) :
    next.HoldsTables line := by
  have hnext := hextends.sound hsound
  have hmono := htables.mono hline.le
  cases hextends with
  | pass => exact hmono
  | featureText => exact Extends.featureText.holdsTables_text hsound htables
  | containerText hsteps =>
      exact (Extends.containerText hsteps).holdsTables_text hsound htables
  | groupText hrows => exact (Extends.groupText hrows).holdsTables_text hsound htables
  | opening hslot =>
      refine .body_some ?_ ((htables.follows _ rfl).open_doc hslot hline _)
      exact isTabular_of_headings htables.isTabular (headings_body_some hsound)
        (headings_body_some hnext) id
  | content =>
      refine .body_some ?_ ((hmono.follows _ rfl).push_doc _)
      exact isTabular_of_headings htables.isTabular (headings_body_some hsound)
        (headings_body_some hnext) id
  | closing =>
      refine .body_some ?_ (hmono.follows _ rfl).close_doc
      exact isTabular_of_headings htables.isTabular (headings_body_some hsound)
        (headings_body_some hnext) fun htabular => htabular.concat_doc _

end Phase

namespace Assembly

/-- One move on a token behind the last one keeps the tables. -/
theorem Move.holdsTables {assembly next : Assembly} {token : Token}
    (hmove : assembly.Move token next) (hsound : assembly.phase.Sound)
    (htables : assembly.phase.HoldsTables assembly.lastLine)
    (hline : assembly.lastLine < token.line) :
    next.phase.HoldsTables next.lastLine := by
  cases hmove with
  | annotate => exact htables.mono hline.le
  | opens hopens => exact hopens.holdsTables hsound htables hline
  | extend hextends => exact hextends.holdsTables hsound htables hline

/-- A run over tokens on lines of their own holds tables. -/
theorem holdsTables_of_feedAll {uri : Text} {policy : TrailingComments}
    {tokens : List Token} {final : Assembly}
    (hlines : tokens.Pairwise fun above below => above.line < below.line)
    (hfirst : ∀ token ∈ tokens, 0 < token.line)
    (hrun : (start uri policy).feedAll tokens = .ok final) :
    final.phase.HoldsTables final.lastLine := by
  let invariant (front : List Token) (assembly : Assembly) : Prop :=
    assembly.phase.Sound ∧ assembly.phase.HoldsTables assembly.lastLine ∧
      (assembly.lastLine = 0 ∨ ∃ token ∈ front, token.line = assembly.lastLine)
  suffices hfinal : invariant tokens final from hfinal.2.1
  apply feedAll_induction_split hrun ⟨trivial, ⟨nofun, nofun⟩, .inl rfl⟩
  rintro front token back assembly next rfl ⟨hsound, htables, hlast⟩ hmove
  have hline : assembly.lastLine < token.line := by
    rcases hlast with hlast | ⟨other, hother, hlast⟩
    · rw [hlast]
      exact hfirst token (by simp)
    · rw [← hlast]
      exact (List.pairwise_append.mp hlines).2.2 other hother token List.mem_cons_self
  refine ⟨hmove.sound hsound, hmove.holdsTables hsound htables hline, .inr ?_⟩
  exact ⟨token, by simp, hmove.lastLine_eq.symm⟩

end Assembly

/-! ## Documents that were read -/

/-- The cells of a row were read from a token of the passage. -/
theorem Passage.Yields.exists_tableRow_of_mem_rows {uri : Text} {passage : Passage}
    {heading : Heading} (hyields : passage.Yields uri heading) {row : Row}
    (hrow : row ∈ heading.rows) :
    ∃ token ∈ passage.body, ∃ raw, token.kind = .tableRow raw ∧
      Cells.decode raw = .ok row.cells := by
  have hread : (row.line, .ok row.cells) ∈ passage.body.filterMap Token.row? := by
    rw [← hyields.rows_eq]
    exact List.mem_map_of_mem hrow
  obtain ⟨token, hbody, htoken⟩ := List.mem_filterMap.mp hread
  unfold Token.row? at htoken
  split at htoken
  · next raw hkind =>
      obtain ⟨-, hcells⟩ := Prod.mk.inj (Option.some.inj htoken)
      exact ⟨token, hbody, raw, hkind, hcells⟩
  · cases htoken

theorem Passage.Yields.areTrimmed_cells {uri : Text} {passage : Passage}
    {heading : Heading} (hyields : passage.Yields uri heading) :
    ∀ row ∈ heading.rows, Cells.AreTrimmed row.cells := by
  intro row hrow
  obtain ⟨_, _, _, _, hcells⟩ := hyields.exists_tableRow_of_mem_rows hrow
  exact Cells.areTrimmed_of_decode hcells

theorem exists_passage_of_mem_headings {uri : Text} {passages : List Passage}
    {headings : List Heading}
    (hyields : List.Forall₂ (Passage.Yields uri) passages headings)
    {heading : Heading} (hheading : heading ∈ headings) :
    ∃ passage ∈ passages, passage.Yields uri heading := by
  induction hyields with
  | nil => cases hheading
  | cons hyields _ ih =>
      rcases List.mem_cons.mp hheading with rfl | hheading
      · exact ⟨_, List.mem_cons_self, hyields⟩
      · obtain ⟨passage, hpassage, hyields⟩ := ih hheading
        exact ⟨passage, List.mem_cons_of_mem _ hpassage, hyields⟩

section Parsed

variable {config : Config} {uri document : Text} {feature : Feature}

/-- What is read from a document is made up of tables. -/
theorem isTabular_of_parse (hparse : parse config uri document = .ok feature) :
    ∀ heading ∈ feature.headings, heading.IsTabular := by
  obtain ⟨final, hrun, -, hheadings⟩ := exists_run_of_parse hparse
  have hfirst : ∀ token ∈ (scan config.keywords document).tokens, 0 < token.line := by
    intro token htoken
    have hline : token.line ∈ (scan config.keywords document).tokens.map Token.line :=
      List.mem_map_of_mem htoken
    rw [scan, Scanner.remaining, Scanner.map_line_scanLines] at hline
    exact Nat.lt_of_lt_of_le (Nat.succ_pos _) (List.left_le_of_mem_range' hline)
  have htables := Assembly.holdsTables_of_feedAll
    (pairwise_line_scan config.keywords document) hfirst hrun
  rw [← hheadings]
  exact htables.isTabular

theorem cells_ne_nil_of_parse (hparse : parse config uri document = .ok feature) :
    ∀ heading ∈ feature.headings, ∀ row ∈ heading.rows, row.cells ≠ [] := by
  intro heading hheading row hrow
  obtain ⟨passage, -, hyields⟩ :=
    exists_passage_of_mem_headings (forall₂_yields_of_parse hparse) hheading
  exact (hyields.areTrimmed_cells row hrow).ne_nil

/-- The rows of a group of examples are equally wide. -/
theorem width_eq_of_mem_groups (hparse : parse config uri document = .ok feature)
    {container : Container} (hcontainer : container ∈ feature.containers)
    {group : Examples} (hgroup : group ∈ container.groups) :
    ∀ left ∈ group.rows, ∀ right ∈ group.rows,
      left.cells.length = right.cells.length :=
  (isTabular_of_parse hparse _
    (Feature.heading_mem_of_mem_groups hcontainer hgroup)).width_eq rfl

/-- Every row of a document that is read has a cell.  The rows of a group of examples
are equally wide, and so are two rows of a step that no doc string parts.  All rows of
the step are equally wide exactly if those are that a doc string parts. -/
theorem parse_yields_tables (hparse : parse config uri document = .ok feature) :
    (∀ container ∈ feature.containers, ∀ group ∈ container.groups,
      (∀ row ∈ group.rows, row.cells ≠ []) ∧
        ∀ left ∈ group.rows, ∀ right ∈ group.rows,
          left.cells.length = right.cells.length) ∧
    ∀ container ∈ feature.containers, ∀ step ∈ container.steps,
      (∀ row ∈ step.rows, row.cells ≠ []) ∧
        (step.rows.Pairwise fun above below =>
          ¬ Row.Parted step.docs above below →
            above.cells.length = below.cells.length) ∧
        ((∀ left ∈ step.rows, ∀ right ∈ step.rows,
            left.cells.length = right.cells.length) ↔
          step.rows.Pairwise fun above below =>
            Row.Parted step.docs above below →
              above.cells.length = below.cells.length) := by
  constructor
  · intro container hcontainer group hgroup
    refine ⟨?_, width_eq_of_mem_groups hparse hcontainer hgroup⟩
    exact cells_ne_nil_of_parse hparse _
      (Feature.heading_mem_of_mem_groups hcontainer hgroup)
  · intro container hcontainer step hstep
    have hheading := Feature.heading_mem_of_mem_steps hcontainer hstep
    have htabular : step.rows.Pairwise fun above below =>
        ¬ Row.Parted step.docs above below →
          above.cells.length = below.cells.length :=
      List.Pairwise.imp (fun hrows hparted => hrows.resolve_right hparted)
        (isTabular_of_parse hparse _ hheading)
    refine ⟨cells_ne_nil_of_parse hparse _ hheading, htabular, ?_, ?_⟩
    · intro heven
      exact List.pairwise_of_forall_mem_list
        fun above habove below hbelow _ => heven above habove below hbelow
    · intro hparted
      have hwidths : step.rows.Pairwise fun above below =>
          above.cells.length = below.cells.length :=
        (htabular.and hparted).imp fun hrows =>
          (Classical.em _).elim hrows.2 hrows.1
      exact Row.width_eq_of_pairwise hwidths

end Parsed

/-- A step whose table a doc string interrupts, and a group of examples. -/
def interruptedTable : Text :=
  ("Feature: F\nScenario Outline: S\nGiven x\n| a |\n\x60\x60\x60\n\x60\x60\x60\n"
    ++ "| b | c |\nExamples:\n| h |\n| v |\n").toList

/-- The step, with rows of one and of two cells. -/
def interruptedStep : Step where
  uri := "u".toList
  line := 3
  comments := []
  tags := []
  keyword := "Given".toList
  kind := .given
  name := "x".toList
  docs := [⟨5, .backticks, none, []⟩]
  rows :=
    [⟨⟨"u".toList, 4, [], []⟩, ["a".toList]⟩,
      ⟨⟨"u".toList, 7, [], []⟩, ["b".toList, "c".toList]⟩]

def interruptedFeature : Feature where
  uri := "u".toList
  line := 1
  comments := []
  tags := []
  keyword := "Feature".toList
  name := "F".toList
  description := []
  backgrounds := []
  scenarios :=
    [{  uri := "u".toList, line := 2, comments := [], tags := []
        keyword := "Scenario Outline".toList, name := "S".toList, description := []
        kind := .outline
          [{  uri := "u".toList, line := 8, comments := [], tags := []
              keyword := "Examples".toList, name := [], description := []
              rows :=
                [⟨⟨"u".toList, 9, [], []⟩, ["h".toList]⟩,
                  ⟨⟨"u".toList, 10, [], []⟩, ["v".toList]⟩] }]
        steps := [interruptedStep] }]
  trailingComments := []

theorem parse_interruptedTable :
    parse {} "u".toList interruptedTable = .ok interruptedFeature := rfl

theorem parse_yields_tables_interruptedTable :
    parse {} "u".toList interruptedTable = .ok interruptedFeature ∧
      ∀ container ∈ interruptedFeature.containers, ∀ step ∈ container.steps,
        step.rows.Pairwise fun above below =>
          ¬ Row.Parted step.docs above below →
            above.cells.length = below.cells.length :=
  ⟨parse_interruptedTable, fun container hcontainer step hstep =>
    ((parse_yields_tables parse_interruptedTable).2 container hcontainer step
      hstep).2.1⟩

/-- The rows of one step need not be equally wide. -/
theorem uneven_step_of_interruptedTable :
    parse {} "u".toList interruptedTable = .ok interruptedFeature ∧
      ∃ container ∈ interruptedFeature.containers, ∃ step ∈ container.steps,
        ∃ left ∈ step.rows, ∃ right ∈ step.rows,
          left.cells.length ≠ right.cells.length :=
  ⟨parse_interruptedTable, by decide⟩

end Gherkin
