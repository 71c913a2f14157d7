import Gherkin.Proofs.Rendering
import Gherkin.Proofs.Renumbering
import Gherkin.Proofs.Text.Joined
import Mathlib.Data.List.Induction

/-!
# Steps are rebuilt from their kinds

The kinds of a tree, fed to an assembly one after the other, build the tree again.
Line numbers play no part in this, so here every line has the same number.  Each part
of the tree takes the assembly from one phase to another and leaves nothing pending.
This file goes as far as the steps of a container, with their doc strings and rows.
-/

namespace Gherkin

/-! ## Runs without line numbers -/

namespace Assembly

/-- Lines of these kinds take the one assembly to the other. -/
def Reaches (assembly : Assembly) (kinds : List LineKind) (final : Assembly) : Prop :=
  assembly.feedAll (kinds.map (Token.mk 0)) = .ok final

variable {assembly middle final : Assembly} {front back : List LineKind}
variable {kind : LineKind}

theorem Reaches.refl (assembly : Assembly) : assembly.Reaches [] assembly := rfl

theorem Reaches.append (hfront : assembly.Reaches front middle)
    (hback : middle.Reaches back final) : assembly.Reaches (front ++ back) final := by
  rw [Reaches, List.map_append, feedAll_append, show assembly.feedAll _ = _ from hfront]
  exact hback

theorem Move.reaches (hmove : assembly.Move ⟨0, kind⟩ final) :
    assembly.Reaches [kind] final :=
  feedAll_cons_eq_ok_iff.mpr ⟨final, hmove, rfl⟩

/-- Comments wait for what follows them. -/
theorem reaches_comments (hdoc : assembly.phase.doc? = none)
    (hline : assembly.lastLine = 0)
    (comments : List Text) :
    assembly.Reaches (comments.map .comment)
      { assembly with pending.comments := assembly.pending.comments ++ comments } := by
  induction comments generalizing assembly with
  | nil =>
      rw [List.append_nil]
      exact .refl _
  | cons comment comments ih =>
      have hmove : assembly.Move ⟨0, .comment comment⟩ _ := .annotate hdoc trivial
      rw [Pending.add_comment] at hmove
      have hrest := hmove.reaches.append (ih hdoc rfl)
      rw [List.append_assoc, ← hline] at hrest
      exact hrest

end Assembly

namespace Phase

/-- The assembly that is in this phase with nothing pending. -/
def assembly (phase : Phase) (uri : Text) : Assembly :=
  ⟨uri, .attach, {}, 0, phase⟩

/-- Lines of these kinds take a document from the one phase to the other. -/
def Reaches (uri : Text) (phase : Phase) (kinds : List LineKind) (next : Phase) :
    Prop :=
  (phase.assembly uri).Reaches kinds (next.assembly uri)

variable {uri : Text} {phase middle next : Phase} {kind : LineKind}

theorem Reaches.refl (uri : Text) (phase : Phase) : phase.Reaches uri [] phase := rfl

theorem Reaches.append {front back : List LineKind}
    (hfront : phase.Reaches uri front middle)
    (hback : middle.Reaches uri back next) : phase.Reaches uri (front ++ back) next :=
  Assembly.Reaches.append hfront hback

/-- The lines above a node make its comments and tags pending. -/
theorem reaches_node (hdoc : phase.doc? = none) (node : Node) :
    (phase.assembly uri).Reaches node.kinds
      { phase.assembly uri with pending := ⟨node.comments, node.tags⟩ } := by
  have hcomments := (phase.assembly uri).reaches_comments hdoc rfl node.comments
  apply hcomments.append
  by_cases htags : node.tags = []
  · rw [htags]
    exact .refl _
  · rw [if_neg (by simpa using htags)]
    have hmove : Assembly.Move
        { phase.assembly uri with pending := ⟨node.comments, []⟩ }
        ⟨0, .tags node.tags⟩ _ := .annotate hdoc trivial
    rw [Pending.add_tags] at hmove
    exact hmove.reaches

/-- A construct is opened with the comments and tags of its node. -/
theorem Opens.reaches {node : Node}
    (hopens : phase.Opens (node.mapLines noLine) kind next)
    (huri : node.uri = uri) : phase.Reaches uri (node.kinds ++ [kind]) next := by
  refine Assembly.Reaches.append (reaches_node hopens.doc?_eq_none node) ?_
  have hnode : Assembly.node
      { phase.assembly uri with pending := ⟨node.comments, node.tags⟩ } 0 =
      node.mapLines noLine := by
    rw [← huri]
    rfl
  rw [← hnode] at hopens
  exact (Assembly.Move.opens hopens).reaches

theorem Extends.reaches (hextends : phase.Extends 0 kind next) :
    phase.Reaches uri [kind] next :=
  (Assembly.Move.extend hextends).reaches

end Phase

/-! ## Descriptions -/

namespace Text

theorem foldl_addLine {lines : List Text} (hlines : ∀ line ∈ lines, line ≠ []) :
    lines.foldl addLine [] = joinLines lines := by
  induction lines using List.reverseRecOn with
  | nil => rfl
  | append_singleton lines line ih =>
      have hfront : ∀ other ∈ lines, other ≠ [] := fun other hother =>
        hlines other (List.mem_append_left _ hother)
      rw [List.foldl_append, ih hfront, ← addLine_joinLines hfront]
      rfl

theorem joinLines_linesOf (text : Text) : joinLines text.linesOf = text := by
  unfold linesOf
  split
  · next hempty =>
      rw [List.isEmpty_iff.mp hempty]
      rfl
  · exact List.intercalate_splitOn '\n'

end Text

/-- The lines of a description, fed where they are added up, give the description. -/
theorem reaches_description (uri : Text) (place : Text → Phase)
    (hplace : ∀ before line,
      (place before).Extends 0 (.text line) (place (before.addLine line)))
    {description : Text} (hsaid : ∀ line ∈ description.linesOf, line.IsSaid) :
    (place []).Reaches uri (description.linesOf.map .text) (place description) := by
  have hfold (before : Text) (lines : List Text) : (place before).Reaches uri
      (lines.map .text) (place (lines.foldl Text.addLine before)) := by
    induction lines generalizing before with
    | nil => exact .refl _ _
    | cons line lines ih => exact (hplace before line).reaches.append (ih _)
  have hne : ∀ line ∈ description.linesOf, line ≠ [] := fun line hline =>
    LineKind.ne_nil_of_ofLine_eq_text (hsaid line hline).read
  have hlines := hfold [] description.linesOf
  rwa [Text.foldl_addLine hne, Text.joinLines_linesOf] at hlines

/-! ## Tables -/

/-- Rows that are as wide as each other and as those in front of them. -/
def Row.AreEven (front rows : List Row) : Prop :=
  ∀ first ∈ front ++ rows, ∀ row ∈ rows, first.cells.length = row.cells.length

/-- Behind their first row the others are as wide as all that is known to be as wide as
that row or one in front of it. -/
theorem Row.AreEven.tail {front known rows : List Row} {row : Row}
    (heven : Row.AreEven front (row :: rows))
    (hknown : ∀ other ∈ known, other ∈ front ∨ other.cells = row.cells) :
    Row.AreEven known rows := by
  intro first hfirst other hother
  have hother := List.mem_cons_of_mem row hother
  rcases List.mem_append.mp hfirst with hfirst | hfirst
  · rcases hknown first hfirst with hfront | hcells
    · exact heven first (List.mem_append_left _ hfront) other hother
    · rw [hcells]
      exact heven row (List.mem_append_right _ List.mem_cons_self) other hother
  · have hbehind := List.mem_append_right front (List.mem_cons_of_mem row hfirst)
    exact heven first hbehind other hother

theorem Row.AreEven.head {front rows : List Row} {row : Row}
    (heven : Row.AreEven front (row :: rows)) :
    ∀ first ∈ front, first.cells.length = row.cells.length :=
  fun first hfirst => heven first (List.mem_append_left _ hfirst) row List.mem_cons_self

/-! ## Doc strings and rows of a step -/

/-- Escaped content below a fence without indentation is read as it was. -/
theorem FenceLine.map_content_escape {opening : FenceLine}
    (hindent : opening.indent = 0)
    {lines : List Text} (hlines : ∀ line ∈ lines, opening.fence.Unescaped line) :
    (lines.map opening.fence.escape).map opening.content = lines := by
  rw [List.map_map]
  refine (List.map_congr_left fun line hline => ?_).trans (List.map_id lines)
  rw [Function.comp_apply, content, hindent, dedent, if_pos (Nat.zero_le _),
    List.drop_zero]
  exact Fence.unescape_escape (hlines line hline)

section Step

variable {uri : Text} {assembly : Assembly} {feature : Feature} {container : Container}
variable {step : Step} {slot : Slot}

/-- Content is added to the doc string that is open, line by line. -/
theorem Assembly.exists_feedAll_contents {doc : OpenDoc} {lines : List Text}
    {tokens : List Token}
    (hphase : assembly.phase = .body feature container (some ⟨step, .doc doc⟩))
    (hkinds : tokens.map Token.kind = lines.map .content) :
    ∃ last, assembly.feedAll tokens =
      .ok { assembly with
        lastLine := last
        phase := .body feature container (some ⟨step, .doc
          { doc with
              contents := doc.contents ++ lines.map doc.opening.content }⟩) } := by
  induction lines generalizing assembly doc tokens with
  | nil =>
      obtain rfl := List.map_eq_nil_iff.mp hkinds
      refine ⟨assembly.lastLine, ?_⟩
      rw [List.map_nil, List.append_nil, ← hphase]
      rfl
  | cons line lines ih =>
      obtain ⟨⟨number, _⟩, tokens, rfl, rfl, hothers⟩ := List.map_eq_cons_iff.mp hkinds
      let next : Assembly :=
        { assembly with
          lastLine := number
          phase := .body feature container (some ⟨step, .doc (doc.push line)⟩) }
      have hmove : assembly.Move ⟨number, .content line⟩ next :=
        .extend (hphase ▸ .content)
      have hnext : next.phase =
          .body feature container (some ⟨step, .doc (doc.push line)⟩) := rfl
      obtain ⟨last, hrest⟩ := ih hnext hothers
      refine ⟨last, feedAll_cons_eq_ok_iff.mpr ⟨next, hmove, hrest.trans ?_⟩⟩
      rw [OpenDoc.push, List.append_assoc, List.map_cons]
      rfl

/-- Below an opening fence come lines of content, and then the fence that closes it. -/
theorem Assembly.feedAll_docString
    (hphase : assembly.phase = .body feature container (some ⟨step, slot⟩))
    (hslot : slot.IsClosed) (first last : Nat) {opening closing : FenceLine}
    (hfence : closing.fence = opening.fence) {lines : List Text} {tokens : List Token}
    (hkinds : tokens.map Token.kind = lines.map .content) :
    assembly.feedAll
        (⟨first, .fence opening⟩ :: (tokens ++ [⟨last, .fence closing⟩])) =
      .ok { assembly with
        lastLine := last
        phase := .body feature container (some
          ⟨{ step with docs :=
            step.docs ++ [⟨first, opening.fence, opening.contentType?,
            Text.joinLines (lines.map opening.content)⟩] }, .idle⟩) } := by
  let doc : OpenDoc := { line := first, opening := opening }
  let opened : Assembly :=
    { assembly with
      lastLine := first
      phase := .body feature container (some ⟨step, .doc doc⟩) }
  have hmove : assembly.Move ⟨first, .fence opening⟩ opened :=
    .extend (hphase ▸ .opening hslot)
  have hopened : opened.phase = .body feature container (some ⟨step, .doc doc⟩) := rfl
  obtain ⟨before, hcontents⟩ := exists_feedAll_contents hopened hkinds
  refine feedAll_cons_eq_ok_iff.mpr ⟨opened, hmove, ?_⟩
  rw [feedAll_append, hcontents]
  exact feedAll_cons_eq_ok_iff.mpr ⟨_, .extend (.closing hfence), rfl⟩

/-- A written doc string is read back into the open step. -/
theorem DocString.IsWritten.reaches {doc : DocString} (hdoc : doc.IsWritten)
    (hslot : slot.IsClosed) :
    Phase.Reaches uri (.body feature container (some ⟨step, slot⟩)) doc.kinds
      (.body feature container
        (some ⟨{ step with docs := step.docs ++ [doc.mapLines noLine] }, .idle⟩)) := by
  let opening : FenceLine := ⟨doc.fence, 0, doc.contentType?⟩
  let closing : FenceLine := ⟨doc.fence, 0, none⟩
  let phase : Phase := .body feature container (some ⟨step, slot⟩)
  have hphase : (phase.assembly uri).phase = phase := rfl
  have hfence : closing.fence = opening.fence := rfl
  have hkinds : ((doc.content.linesOf.map fun line =>
        LineKind.content (doc.fence.escape line)).map (Token.mk 0)).map Token.kind =
      (doc.content.linesOf.map doc.fence.escape).map .content := by
    simp only [List.map_map, Function.comp_def]
  have hcontents : (doc.content.linesOf.map doc.fence.escape).map opening.content =
      doc.content.linesOf :=
    FenceLine.map_content_escape rfl fun line hline => (hdoc.content line hline).2
  have hrun := Assembly.feedAll_docString hphase hslot 0 0 hfence hkinds
  rw [hcontents, Text.joinLines_linesOf] at hrun
  rw [Phase.Reaches, Assembly.Reaches, DocString.kinds, List.map_cons, List.map_append]
  exact hrun

theorem reaches_docs (uri : Text) (feature : Feature) (container : Container)
    (step : Step)
    (hslot : slot.IsClosed) {docs : List DocString}
    (hdocs : ∀ doc ∈ docs, doc.IsWritten) :
    ∃ last : Slot, last.IsClosed ∧ (slot.first? = none → last.first? = none) ∧
      Phase.Reaches uri (.body feature container (some ⟨step, slot⟩))
        (docs.flatMap DocString.kinds)
        (.body feature container (some
          ⟨{ step with docs := step.docs ++ docs.map (DocString.mapLines noLine) },
            last⟩)) := by
  induction docs generalizing step slot with
  | nil =>
      refine ⟨slot, hslot, id, ?_⟩
      rw [List.map_nil, List.append_nil]
      exact .refl _ _
  | cons doc docs ih =>
      let read : Step := { step with docs := step.docs ++ [doc.mapLines noLine] }
      have hclosed : Slot.idle.IsClosed := trivial
      obtain ⟨last, hlast, hnone, hrest⟩ := ih read hclosed
        fun other hother => hdocs other (List.mem_cons_of_mem doc hother)
      refine ⟨last, hlast, fun _ => hnone rfl, ?_⟩
      rw [List.append_assoc] at hrest
      exact ((hdocs doc List.mem_cons_self).reaches hslot).append hrest

/-- Rows as wide as those before them are read back into the open step. -/
theorem reaches_stepRows (feature : Feature) (container : Container) (step : Step)
    (hslot : slot.IsClosed) {rows : List Row} (huri : ∀ row ∈ rows, row.uri = uri)
    (hcells : ∀ row ∈ rows, Cells.AreTrimmed row.cells)
    (heven : Row.AreEven slot.first?.toList rows) :
    ∃ last : Slot, last.IsClosed ∧
      Phase.Reaches uri (.body feature container (some ⟨step, slot⟩))
        (rows.flatMap Row.kinds)
        (.body feature container (some
          ⟨{ step with rows := step.rows ++ rows.map (Row.mapLines noLine) },
            last⟩)) := by
  induction rows generalizing step slot with
  | nil =>
      refine ⟨slot, hslot, ?_⟩
      rw [List.map_nil, List.append_nil]
      exact .refl _ _
  | cons row rows ih =>
      have hdecode := Cells.decode_encode (hcells row List.mem_cons_self)
      have hopens : Phase.Opens (row.toNode.mapLines noLine)
          (.body feature container (some ⟨step, slot⟩))
            (.tableRow (Cells.encode row.cells))
          _ :=
        .stepRow hslot hdecode fun first hfirst =>
          heven.head first (Option.mem_toList.mpr hfirst)
      let read : Step := { step with rows := step.rows ++ [row.mapLines noLine] }
      let next : Slot := .table (slot.first?.getD (row.mapLines noLine))
      have hnext : next.IsClosed := trivial
      have hrestEven : Row.AreEven next.first?.toList rows := by
        apply heven.tail
        intro other hother
        rw [List.mem_singleton.mp hother]
        cases slot.first? with
        | none => exact .inr rfl
        | some first => exact .inl List.mem_cons_self
      obtain ⟨last, hlast, hrest⟩ := ih read hnext
        (fun other hother => huri other (List.mem_cons_of_mem row hother))
        (fun other hother => hcells other (List.mem_cons_of_mem row hother)) hrestEven
      refine ⟨last, hlast, ?_⟩
      rw [List.append_assoc] at hrest
      exact (hopens.reaches (huri row List.mem_cons_self)).append hrest

end Step

/-! ## Steps of a container -/

/-- All rows have the same number of cells. -/
def Heading.IsEven (heading : Heading) : Prop :=
  ∀ first ∈ heading.rows, ∀ row ∈ heading.rows, first.cells.length = row.cells.length

/-- A heading that can be written and read back below this address. -/
structure Heading.IsRebuilt (uri : Text) (heading : Heading) : Prop extends
    heading.IsWritten where
  uri_eq : ∀ node ∈ heading.nodes, node.uri = uri
  even : heading.IsEven

theorem Heading.IsRebuilt.uri_rows {uri : Text} {heading : Heading}
    (hheading : heading.IsRebuilt uri) : ∀ row ∈ heading.rows, row.uri = uri :=
  fun row hrow =>
    hheading.uri_eq row.toNode (List.mem_cons_of_mem _ (List.mem_map_of_mem hrow))

variable {uri : Text} {feature : Feature} {container : Container}

/-- A written step is read back behind the steps before it. -/
theorem Step.reaches {step : Step} (hstep : step.heading.IsRebuilt uri)
    {open? : Option OpenStep}
    (hdoc : (Phase.body feature container open?).doc? = none) :
    ∃ slot : Slot, slot.IsClosed ∧
      Phase.Reaches uri (.body feature container open?) step.kinds
        (.body feature (container.addStep open?)
          (some ⟨step.mapLines noLine, slot⟩)) := by
  let opening : KeywordLine := ⟨.step step.kind, step.keyword, step.name⟩
  let opened : Step := opening.step (step.toNode.mapLines noLine) step.kind
  have hopens : Phase.Opens (step.toNode.mapLines noLine)
      (.body feature container open?)
      (.keyword opening) (.body feature (container.addStep open?)
        (some ⟨opened, .idle⟩)) :=
    .step hdoc rfl
  have hidle : Slot.idle.IsClosed := trivial
  obtain ⟨behind, hbehind, hfirst, hdocs⟩ :=
    reaches_docs uri feature (container.addStep open?) opened hidle hstep.docs
  have heven : Row.AreEven behind.first?.toList step.rows := by
    rw [hfirst rfl]
    exact hstep.even
  obtain ⟨slot, hslot, hrows⟩ := reaches_stepRows feature (container.addStep open?)
    { opened with docs := step.docs.map (DocString.mapLines noLine) } hbehind
    hstep.uri_rows hstep.cells heven
  refine ⟨slot, hslot, ?_⟩
  have huri := hstep.uri_eq step.toNode List.mem_cons_self
  have hkinds := (hopens.reaches huri).append (hdocs.append hrows)
  rw [List.append_assoc] at hkinds
  exact hkinds

theorem reaches_steps (feature : Feature) (container : Container)
    (open? : Option OpenStep)
    (hdoc : (Phase.body feature container open?).doc? = none) {steps : List Step}
    (hsteps : ∀ step ∈ steps, step.heading.IsRebuilt uri) :
    ∃ before last?, (Phase.body feature before last?).doc? = none ∧
      before.addStep last? =
        { container.addStep open? with
          steps :=
            (container.addStep open?).steps ++ steps.map (Step.mapLines noLine) } ∧
      Phase.Reaches uri (.body feature container open?) (steps.flatMap Step.kinds)
        (.body feature before last?) := by
  induction steps generalizing container open? with
  | nil =>
      refine ⟨container, open?, hdoc, ?_, .refl _ _⟩
      rw [List.map_nil, List.append_nil]
  | cons step steps ih =>
      obtain ⟨slot, hslot, hstep⟩ := Step.reaches (hsteps step List.mem_cons_self) hdoc
      obtain ⟨before, last?, hlast, hadded, hrest⟩ := ih (container.addStep open?)
        (some ⟨step.mapLines noLine, slot⟩) (Phase.doc?_body_eq_none_iff.mpr hslot)
        fun other hother => hsteps other (List.mem_cons_of_mem step hother)
      refine ⟨before, last?, hlast, ?_, hstep.append hrest⟩
      rw [hadded, List.map_cons, Container.addStep]
      dsimp only
      rw [List.append_assoc, List.singleton_append]

end Gherkin
