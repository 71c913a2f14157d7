import Gherkin.Document.Render
import Gherkin.Proofs.Document.Headings
import Gherkin.Proofs.Text.Lines
import Gherkin.Proofs.Token.Scanned
import Gherkin.Proofs.Token.Written

/-!
# Written documents are read line by line

Every line of a written document has a kind that the tree determines: a comment line
is a comment, the line of a step is its keyword, and so on.  Reading the lines gives
these kinds back in their order, and it never stops inside a doc string, so the parts
of a document can be read one after the other.
-/

namespace Gherkin

/-! ## The kinds of the lines of a tree -/

def Node.kinds (node : Node) : List LineKind :=
  node.comments.map .comment ++ (if node.tags.isEmpty then [] else [.tags node.tags])

def Row.kinds (row : Row) : List LineKind :=
  row.toNode.kinds ++ [.tableRow (Cells.encode row.cells)]

def DocString.kinds (doc : DocString) : List LineKind :=
  .fence ⟨doc.fence, 0, doc.contentType?⟩ ::
    (doc.content.linesOf.map (fun line => .content (doc.fence.escape line)) ++
      [.fence ⟨doc.fence, 0, none⟩])

def Step.kinds (step : Step) : List LineKind :=
  step.toNode.kinds ++ .keyword ⟨.step step.kind, step.keyword, step.name⟩ ::
    (step.docs.flatMap DocString.kinds ++ step.rows.flatMap Row.kinds)

def Examples.kinds (group : Examples) : List LineKind :=
  group.toNode.kinds ++ .keyword ⟨.examples, group.keyword, group.name⟩ ::
    (group.description.linesOf.map .text ++ group.rows.flatMap Row.kinds)

def Container.kinds (container : Container) : List LineKind :=
  container.toNode.kinds ++ .keyword
    ⟨container.kind.role, container.keyword, container.name⟩ ::
    (container.description.linesOf.map .text ++ container.steps.flatMap Step.kinds
      ++ container.groups.flatMap Examples.kinds)

def Feature.kinds (feature : Feature) : List LineKind :=
  feature.toNode.kinds ++ .keyword ⟨.feature, feature.keyword, feature.name⟩ ::
    (feature.description.linesOf.map .text ++ feature.containers.flatMap Container.kinds
      ++ feature.trailingComments.map .comment)

/-! ## What can be written -/

structure Node.IsWritten (node : Node) : Prop where
  comments : ∀ comment ∈ node.comments, comment.IsComment
  tags : ∀ tag ∈ node.tags, tag.IsTag

structure DocString.IsWritten (doc : DocString) : Prop where
  contentType : ∀ contentType ∈ doc.contentType?, contentType ≠ [] ∧ contentType.IsName
  content : ∀ line ∈ doc.content.linesOf, '\n' ∉ line ∧ doc.fence.Unescaped line

/-- A heading whose every part was read from a line, and whose rows are equally
wide. -/
structure Heading.IsWritten (heading : Heading) : Prop where
  nodes : ∀ node ∈ heading.nodes, node.IsWritten
  opening : (LineKind.keyword heading.opening).IsWritten
  description : ∀ line ∈ heading.description.linesOf, line.IsSaid
  docs : ∀ doc ∈ heading.docs, doc.IsWritten
  cells : ∀ row ∈ heading.rows, Cells.AreTrimmed row.cells

/-! ## Reading lines one after the other -/

/-- The lines have these kinds, whatever is read before and after them. -/
structure Reads (lines : List Text) (kinds : List LineKind) : Prop where
  no_lineFeed : ∀ line ∈ lines, '\n' ∉ line
  scan : ∀ read rest, ∃ tokens : List Token, tokens.map Token.kind = kinds ∧
    Scanner.scanLines .english read none (lines ++ rest) =
      (Scanner.scanLines .english (read + lines.length) none rest).prepend tokens

namespace Reads

variable {lines front back : List Text} {kinds frontKinds backKinds : List LineKind}

theorem nil : Reads [] [] where
  no_lineFeed := nofun
  scan _ _ := ⟨[], rfl, rfl⟩

theorem append (hfront : Reads front frontKinds) (hback : Reads back backKinds) :
    Reads (front ++ back) (frontKinds ++ backKinds) where
  no_lineFeed line hline := by
    rcases List.mem_append.mp hline with hline | hline
    · exact hfront.no_lineFeed line hline
    · exact hback.no_lineFeed line hline
  scan read rest := by
    obtain ⟨frontTokens, hfrontKinds, hfrontScan⟩ := hfront.scan read (back ++ rest)
    obtain ⟨backTokens, hbackKinds, hbackScan⟩ := hback.scan (read + front.length) rest
    refine ⟨frontTokens ++ backTokens, ?_, ?_⟩
    · rw [List.map_append, hfrontKinds, hbackKinds]
    · rw [List.append_assoc, hfrontScan, hbackScan, Scan.prepend_prepend,
        List.length_append,
        Nat.add_assoc]

/-- A line by itself, if it opens no doc string. -/
theorem line {line : Text} {kind : LineKind}
    (hkind : LineKind.ofLine .english line = kind)
    (hfence : ∀ opening, kind ≠ .fence opening) (hline : '\n' ∉ line) :
    Reads [line] [kind] where
  no_lineFeed other hother := by rwa [List.mem_singleton.mp hother]
  scan read rest := by
    have hread : OpenFence.readLine .english (read + 1) none line = (kind, none) := by
      unfold OpenFence.readLine
      rw [hkind]
      cases kind <;> first | rfl | exact absurd rfl (hfence _)
    exact ⟨[⟨read + 1, kind⟩], rfl, Scanner.scanLines_cons hread rest⟩

theorem flatMap {Item : Type} {items : List Item} {linesOf : Item → List Text}
    {kindsOf : Item → List LineKind}
    (hitems : ∀ item ∈ items, Reads (linesOf item) (kindsOf item)) :
    Reads (items.flatMap linesOf) (items.flatMap kindsOf) := by
  induction items with
  | nil => exact .nil
  | cons item items ih =>
      rw [List.flatMap_cons, List.flatMap_cons]
      refine (hitems item List.mem_cons_self).append (ih fun other hother => ?_)
      exact hitems other (List.mem_cons_of_mem item hother)

theorem map {Item : Type} {items : List Item} {lineOf : Item → Text}
    {kindOf : Item → LineKind}
    (hitems : ∀ item ∈ items, Reads [lineOf item] [kindOf item]) :
    Reads (items.map lineOf) (items.map kindOf) := by
  rw [List.map_eq_flatMap, List.map_eq_flatMap]
  exact flatMap hitems

end Reads

/-! ## Reading the lines of a tree -/

theorem OpenFence.scan_contents (opened : OpenFence) (contents rest : List Text)
    (read : Nat) :
    ∃ tokens : List Token,
      tokens.map Token.kind =
        contents.map (fun line => .content (opened.fence.escape line)) ∧
      Scanner.scanLines .english read (some opened)
          (contents.map opened.fence.escape ++ rest) =
        (Scanner.scanLines .english (read + contents.length) (some opened) rest).prepend
          tokens := by
  induction contents generalizing read with
  | nil => exact ⟨[], rfl, rfl⟩
  | cons line contents ih =>
      obtain ⟨tokens, hkinds, hscan⟩ := ih (read + 1)
      have hread :
        readLine .english (read + 1) (some opened) (opened.fence.escape line) =
          (.content (opened.fence.escape line), some opened) := by
        rw [readLine, LineKind.ofContentLine_escape]
      refine ⟨⟨read + 1, .content (opened.fence.escape line)⟩ :: tokens, ?_, ?_⟩
      · rw [List.map_cons, List.map_cons, hkinds]
      · rw [List.map_cons, List.cons_append, Scanner.scanLines_cons hread, hscan,
          Scan.prepend_prepend, List.length_cons, Nat.add_assoc, Nat.add_comm 1]
        rfl

/-- A doc string without indentation is read from its opening fence to its closing one.
-/
theorem Fence.scan_docString (fence : Fence) {contentType? : Option Text}
    (hcontentType : ∀ contentType ∈ contentType?, contentType ≠ [] ∧ contentType.IsName)
    (contents rest : List Text) (read : Nat) :
    ∃ tokens : List Token,
      tokens.map Token.kind = contents.map (fun line => .content (fence.escape line)) ∧
      Scanner.scanLines .english read none
          ((fence.text ++ contentType?.getD []) ::
            (contents.map fence.escape ++ fence.text :: rest)) =
        (Scanner.scanLines .english (read + contents.length + 2) none rest).prepend
          (⟨read + 1, .fence ⟨fence, 0, contentType?⟩⟩ ::
            (tokens ++ [⟨read + contents.length + 2, .fence ⟨fence, 0, none⟩⟩])) := by
  let opened : OpenFence := ⟨fence, read + 1⟩
  obtain ⟨tokens, hkinds, hscan⟩ :=
    opened.scan_contents contents (fence.text :: rest) (read + 1)
  have hopen : OpenFence.readLine .english (read + 1) none
        (fence.text ++ contentType?.getD []) =
      (.fence ⟨fence, 0, contentType?⟩, some opened) := by
    rw [OpenFence.readLine, LineKind.ofLine_fence fence hcontentType]
  have hclose (number : Nat) :
      OpenFence.readLine .english number (some opened) fence.text =
        (.fence ⟨fence, 0, none⟩, none) := by
    rw [OpenFence.readLine, LineKind.ofContentLine_text]
  have hlast : read + 1 + contents.length + 1 = read + contents.length + 2 := by omega
  refine ⟨tokens, hkinds, ?_⟩
  rw [Scanner.scanLines_cons hopen, hscan, Scanner.scanLines_cons (hclose _), hlast,
    Scan.prepend_prepend, Scan.prepend_prepend]
  rfl

theorem Fence.lineFeed_not_mem_docString {fence : Fence} {contentType : Text}
    {contents : List Text} (hcontentType : '\n' ∉ contentType)
    (hcontents : ∀ line ∈ contents, '\n' ∉ line) :
    ∀ line ∈ (fence.text ++ contentType) :: (contents.map fence.escape ++ [fence.text]),
      '\n' ∉ line := by
  have hfence : '\n' ∉ fence.text := by
    cases fence <;> decide
  intro line hline
  rcases List.mem_cons.mp hline with rfl | hline
  · rw [List.mem_append, not_or]
    exact ⟨hfence, hcontentType⟩
  rcases List.mem_append.mp hline with hline | hline
  · obtain ⟨content, hcontent, rfl⟩ := List.mem_map.mp hline
    exact Fence.lineFeed_not_mem_escape (hcontents content hcontent)
  · rwa [List.mem_singleton.mp hline]

theorem DocString.IsWritten.lineFeed_not_mem {doc : DocString} (hdoc : doc.IsWritten) :
    ∀ line ∈ doc.lines, '\n' ∉ line := by
  apply Fence.lineFeed_not_mem_docString _ fun line hline => (hdoc.content line hline).1
  cases htype : doc.contentType? with
  | none => exact List.not_mem_nil
  | some contentType => exact (hdoc.contentType contentType htype).2.no_lineFeed

theorem DocString.IsWritten.reads {doc : DocString} (hdoc : doc.IsWritten) :
    Reads doc.lines doc.kinds where
  no_lineFeed := hdoc.lineFeed_not_mem
  scan read rest := by
    obtain ⟨tokens, hkinds, hscan⟩ :=
      doc.fence.scan_docString hdoc.contentType doc.content.linesOf rest read
    have hlength : read + doc.lines.length = read + doc.content.linesOf.length + 2 := by
      simp [DocString.lines, Nat.add_assoc]
    have hlines : doc.lines ++ rest = (doc.fence.text ++ doc.contentType?.getD []) ::
        (doc.content.linesOf.map doc.fence.escape ++ doc.fence.text :: rest) := by
      simp [DocString.lines]
    rw [← hlines, ← hlength] at hscan
    refine ⟨_, ?_, hscan⟩
    rw [List.map_cons, List.map_append, hkinds]
    rfl

theorem reads_comments {comments : List Text}
    (hcomments : ∀ comment ∈ comments, comment.IsComment) :
    Reads (comments.map commentLine) (comments.map .comment) := by
  refine .map fun comment hcomment => ?_
  have hwritten := hcomments comment hcomment
  refine .line (LineKind.ofLine_commentLine hwritten) nofun ?_
  simpa [commentLine] using hwritten.no_lineFeed

theorem Node.IsWritten.reads {node : Node} (hnode : node.IsWritten) :
    Reads node.lines node.kinds := by
  apply (reads_comments hnode.comments).append
  by_cases htags : node.tags = []
  · simpa [htags] using Reads.nil
  · rw [if_neg (by simpa using htags), if_neg (by simpa using htags)]
    exact .line (LineKind.ofLine_tagLine htags hnode.tags) nofun
      (LineKind.lineFeed_not_mem_tagLine hnode.tags)

theorem Row.reads {row : Row} (hnode : row.toNode.IsWritten)
    (hcells : Cells.AreTrimmed row.cells) :
    Reads row.lines row.kinds :=
  hnode.reads.append (.line (LineKind.ofLine_encode hcells.ne_nil) nofun
    (Cells.lineFeed_not_mem_encode row.cells))

theorem reads_description {description : Text}
    (hdescription : ∀ line ∈ description.linesOf, line.IsSaid) :
    Reads description.linesOf (description.linesOf.map .text) := by
  have hlines : Reads (description.linesOf.map id) (description.linesOf.map .text) :=
    .map fun line hline =>
      .line (hdescription line hline).read nofun (hdescription line hline).no_lineFeed
  rwa [List.map_id] at hlines

theorem reads_structuralLine {written name : Text} {role : Role}
    (hopening : (LineKind.keyword ⟨role, written, name⟩).IsWritten)
    (hrole : role.isStructural = true) :
    Reads [structuralLine written name] [.keyword ⟨role, written, name⟩] := by
  obtain ⟨hentry, hname⟩ := hopening
  refine .line (LineKind.ofLine_structuralLine hentry hrole hname) nofun ?_
  have hwritten := (KeywordTable.isLiteral_of_mem_english hentry).no_lineFeed
  intro hmem
  rcases List.mem_append.mp hmem with hmem | hmem
  · exact hwritten hmem
  · simp only [List.mem_cons] at hmem
    rcases hmem with hcolon | hspace | hmem
    · exact absurd hcolon (by decide)
    · exact absurd hspace (by decide)
    · exact hname.no_lineFeed hmem

theorem Step.reads_text {step : Step}
    (hopening :
      (LineKind.keyword ⟨.step step.kind, step.keyword, step.name⟩).IsWritten) :
    Reads [step.text] [.keyword ⟨.step step.kind, step.keyword, step.name⟩] := by
  obtain ⟨hentry, hname⟩ := hopening
  refine .line (LineKind.ofLine_stepLine hentry rfl hname) nofun ?_
  have hwritten := (KeywordTable.isLiteral_of_mem_english hentry).no_lineFeed
  unfold text
  split
  · exact hwritten
  · intro hmem
    rcases List.mem_append.mp hmem with hmem | hmem
    · exact hwritten hmem
    · rcases List.mem_cons.mp hmem with hspace | hmem
      · exact absurd hspace (by decide)
      · exact hname.no_lineFeed hmem

namespace Heading.IsWritten

theorem node {heading : Heading} (hheading : heading.IsWritten) :
    heading.node.IsWritten :=
  hheading.nodes heading.node List.mem_cons_self

theorem reads_rows {heading : Heading} (hheading : heading.IsWritten) :
    Reads (heading.rows.flatMap Row.lines) (heading.rows.flatMap Row.kinds) :=
  .flatMap fun row hrow =>
    Row.reads
      (hheading.nodes row.toNode (List.mem_cons_of_mem _ (List.mem_map_of_mem hrow)))
      (hheading.cells row hrow)

end Heading.IsWritten

theorem Step.reads {step : Step} (hstep : step.heading.IsWritten) :
    Reads step.lines step.kinds :=
  hstep.node.reads.append ((Step.reads_text hstep.opening).append
    ((Reads.flatMap fun doc hdoc => (hstep.docs doc hdoc).reads).append
      hstep.reads_rows))

theorem Examples.reads {group : Examples} (hgroup : group.heading.IsWritten) :
    Reads group.lines group.kinds :=
  hgroup.node.reads.append ((reads_structuralLine hgroup.opening rfl).append
    ((reads_description hgroup.description).append hgroup.reads_rows))

theorem Container.reads {container : Container}
    (hheadings : ∀ heading ∈ container.headings, heading.IsWritten) :
    Reads container.lines container.kinds := by
  have hcontainer := hheadings container.heading List.mem_cons_self
  have hrole : container.kind.role.isStructural = true := by
    cases container.kind <;> rfl
  have hsteps : ∀ step ∈ container.steps, step.heading.IsWritten := fun step hstep =>
    hheadings _ (by simp [headings, List.mem_map_of_mem hstep])
  have hgroups : ∀ group ∈ container.groups, group.heading.IsWritten :=
    fun group hgroup =>
    hheadings _ (by simp [headings, List.mem_map_of_mem hgroup])
  have hbehind := ((reads_description hcontainer.description).append
    (.flatMap fun step hstep => Step.reads (hsteps step hstep))).append
      (.flatMap fun group hgroup => Examples.reads (hgroups group hgroup))
  exact hcontainer.node.reads.append
    ((reads_structuralLine hcontainer.opening hrole).append hbehind)

/-- A document whose every part was read from a line reads as its kinds. -/
theorem Feature.reads {feature : Feature}
    (hheadings : ∀ heading ∈ feature.headings, heading.IsWritten)
    (htrailing : ∀ comment ∈ feature.trailingComments, comment.IsComment) :
    Reads feature.lines feature.kinds := by
  have hfeature := hheadings feature.heading List.mem_cons_self
  have hcontainers : ∀ container ∈ feature.containers,
      ∀ heading ∈ container.headings, heading.IsWritten :=
    fun container hcontainer heading hheading =>
      hheadings heading
        (List.mem_cons_of_mem _
          (List.mem_flatMap.mpr ⟨container, hcontainer, hheading⟩))
  have hbehind := ((reads_description hfeature.description).append
    (.flatMap fun container hcontainer =>
      Container.reads (hcontainers container hcontainer))).append
      (reads_comments htrailing)
  exact hfeature.node.reads.append
    ((reads_structuralLine hfeature.opening rfl).append hbehind)

/-! ## The lines of a written document -/

/-- No byte order mark stands in front of a written document. -/
theorem Feature.dropByteOrderMark_render {feature : Feature}
    (hfeature : feature.heading.IsWritten) :
    feature.render.dropByteOrderMark = feature.render := by
  obtain ⟨c, rest, behind, hlines, hc⟩ :
      ∃ c rest behind, feature.lines = (c :: rest) :: behind ∧ c ≠ '\uFEFF' := by
    unfold Feature.lines Node.lines
    rcases hcomments : feature.comments with _ | ⟨comment, comments⟩
    · by_cases htags : feature.tags = []
      · rw [htags]
        have hkeyword := KeywordTable.isLiteral_of_mem_english hfeature.opening.1
        obtain ⟨c, rest, hrest⟩ := List.exists_cons_of_ne_nil hkeyword.ne_nil
        have hc : c ≠ '\uFEFF' := by
          rintro rfl
          exact hkeyword.head?_ne (by rw [hrest]; rfl)
        rw [show feature.keyword = c :: rest from hrest]
        exact ⟨c, _, _, rfl, hc⟩
      · obtain ⟨rest, hrest⟩ := LineKind.exists_tagLine_eq htags
        rw [if_neg (by simpa using htags), hrest]
        exact ⟨'@', rest, _, rfl, by decide⟩
    · exact ⟨'#', _, _, rfl, by decide⟩
  have hrender : feature.render = c :: (rest ++ ['\r', '\n'] ++
      behind.flatMap fun line => line ++ ['\r', '\n']) := by
    rw [render, hlines]
    rfl
  rw [hrender]
  unfold Text.dropByteOrderMark
  split
  · next heq => exact absurd (List.cons.inj heq).1 hc
  · rfl

/-- The lines of a written document are those that it was written from. -/
theorem Feature.lines_render {feature : Feature}
    (hheadings : ∀ heading ∈ feature.headings, heading.IsWritten)
    (htrailing : ∀ comment ∈ feature.trailingComments, comment.IsComment) :
    feature.render.lines = feature.lines := by
  rw [Text.lines, dropByteOrderMark_render (hheadings _ List.mem_cons_self)]
  exact Text.map_dropReturn_splitLines (Feature.reads hheadings htrailing).no_lineFeed

/-- Scanning a written document gives the kinds of its lines. -/
theorem Feature.scan_render {feature : Feature}
    (hheadings : ∀ heading ∈ feature.headings, heading.IsWritten)
    (htrailing : ∀ comment ∈ feature.trailingComments, comment.IsComment) :
    (scan .english feature.render).tokens.map Token.kind = feature.kinds ∧
      (scan .english feature.render).fault? = none := by
  obtain ⟨tokens, hkinds, hscan⟩ := (Feature.reads hheadings htrailing).scan 0 []
  rw [List.append_nil, ← lines_render hheadings htrailing, Scanner.scanLines] at hscan
  rw [scan, Scanner.ofText, Scanner.remaining, hscan, Scan.prepend]
  exact ⟨by rw [List.append_nil, hkinds], rfl⟩

end Gherkin
