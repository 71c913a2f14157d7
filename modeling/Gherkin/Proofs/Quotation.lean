import Gherkin.Proofs.Indentation
import Gherkin.Proofs.Rebuilding.Steps
import Gherkin.Proofs.Resumption

/-!
# Any text can be quoted

A doc string can carry any lines of text.  What looks like a keyword, a row or a comment
is content below an open fence, what looks like the fence is escaped, and a line keeps
the blanks it starts with, as those of the margin are cut off by their number.  Lines
with the escaped form of the fence in them are left out, since that would be read as the
fence.
-/

namespace Gherkin

/-- The scan of the lines behind goes on where the tokens in front lead to. -/
theorem Assembly.read_prepend {assembly middle : Assembly} {front : List Token}
    (hfront : assembly.feedAll front = .ok middle) (scanned : Scan) :
    assembly.read (scanned.prepend front) = middle.read scanned := by
  rw [read, Scan.prepend, feedAll_append, hfront]
  rfl

/-- Every line is indented as far as a fence that is not indented. -/
theorem areIndented_zero {tokens : List Token}
    (hfences : ∀ kind ∈ tokens.map Token.kind, kind.fenceIndent 0 = 0) :
    AreIndented 0 tokens := by
  induction tokens with
  | nil => trivial
  | cons token tokens ih =>
      obtain ⟨htoken, htokens⟩ := List.forall_mem_cons.mp hfences
      constructor
      · cases token.kind <;> first | trivial | exact Nat.zero_le _
      · rw [htoken]
        exact ih htokens

/-! ## Quotations -/

/-- Lines of text with what is chosen for quoting them: the kind of fence around them,
the margin in front of them and the content type behind the opening fence. -/
structure Quotation where
  fence : Fence
  margin : Text
  contentType : Text
  contents : List Text
deriving DecidableEq, Repr

namespace Quotation

/-- The margin is blank, the content type could follow a fence, and the text consists of
lines without the escaped form of the fence. -/
structure IsWritten (quotation : Quotation) : Prop where
  margin : ∀ c ∈ quotation.margin, isBlank c = true
  contentType : quotation.contentType.IsName
  no_lineFeed : ∀ line ∈ quotation.contents, '\n' ∉ line
  no_return : ∀ line ∈ quotation.contents, line.getLast? ≠ some '\r'
  no_escaped : ∀ line ∈ quotation.contents, ¬ quotation.fence.escaped <:+: line

/-- The lines from fence to fence, without their margin. -/
def lines (quotation : Quotation) : List Text :=
  (quotation.fence.text ++ quotation.contentType) ::
    (quotation.contents.map quotation.fence.escape ++ [quotation.fence.text])

/-- What stands above the quotation. -/
def lead : Text :=
  "Feature: F\nScenario: S\nGiven x\n".toList

/-- A document that quotes the lines in the doc string of its only step. -/
def document (quotation : Quotation) : Text :=
  lead ++ quotation.lines.flatMap fun line => quotation.margin ++ line ++ ['\n']

/-- An empty content type is none. -/
def contentType? (quotation : Quotation) : Option Text :=
  if quotation.contentType = [] then none else some quotation.contentType

/-- The doc string that holds the lines. -/
def docString (quotation : Quotation) : DocString where
  line := 4
  fence := quotation.fence
  contentType? := quotation.contentType?
  content := Text.joinLines quotation.contents

/-- The feature above the quotation. -/
def leadFeature (uri : Text) : Feature where
  uri := uri
  line := 1
  comments := []
  tags := []
  keyword := "Feature".toList
  name := "F".toList
  description := []
  backgrounds := []
  scenarios := []
  trailingComments := []

/-- The scenario above the quotation. -/
def leadScenario (uri : Text) : Container where
  uri := uri
  line := 2
  comments := []
  tags := []
  keyword := "Scenario".toList
  name := "S".toList
  description := []
  kind := .scenario
  steps := []

/-- The step above the quotation. -/
def leadStep (uri : Text) : Step where
  uri := uri
  line := 3
  comments := []
  tags := []
  keyword := "Given".toList
  kind := .given
  name := "x".toList
  docs := []
  rows := []

/-- The feature whose only step holds the given doc string and nothing else. -/
def carrier (uri : Text) (doc : DocString) : Feature :=
  { leadFeature uri with
    scenarios :=
      [{ leadScenario uri with steps := [{ leadStep uri with docs := [doc] }] }] }

variable {quotation : Quotation}

theorem contentType?_getD (quotation : Quotation) :
    quotation.contentType?.getD [] = quotation.contentType := by
  unfold contentType?
  split
  · next hnil => exact hnil.symm
  · rfl

namespace IsWritten

theorem contentType? (hquotation : quotation.IsWritten) :
    ∀ contentType ∈ quotation.contentType?, contentType ≠ [] ∧ contentType.IsName := by
  unfold Quotation.contentType?
  split
  · exact nofun
  · next hne =>
      intro contentType hcontentType
      obtain rfl := Option.some.inj hcontentType
      exact ⟨hne, hquotation.contentType⟩

/-- Every line ends as it did before it was escaped. -/
theorem getLast?_ne (hquotation : quotation.IsWritten) :
    ∀ line ∈ quotation.lines, line.getLast? ≠ some '\r' := by
  have hmark : quotation.fence.text.getLast? ≠ some '\r' := by
    cases quotation.fence <;> decide
  intro line hline
  rcases List.mem_cons.mp hline with rfl | hline
  · rw [List.getLast?_append]
    rcases hlast : quotation.contentType.getLast? with _ | c
    · exact hmark
    · intro hreturn
      have hwhite := hquotation.contentType.trimmed.last c hlast
      rw [Option.some.inj hreturn] at hwhite
      exact absurd hwhite (by decide)
  rcases List.mem_append.mp hline with hline | hline
  · obtain ⟨content, hcontent, rfl⟩ := List.mem_map.mp hline
    rw [Fence.getLast?_escape]
    exact hquotation.no_return content hcontent
  · rwa [List.mem_singleton.mp hline]

theorem lineFeed_not_mem (hquotation : quotation.IsWritten) :
    ∀ line ∈ quotation.lines, '\n' ∉ line :=
  Fence.lineFeed_not_mem_docString hquotation.contentType.no_lineFeed
    hquotation.no_lineFeed

/-- The lines behind the lead are those of the quotation behind their margin. -/
theorem lines_document (hquotation : quotation.IsWritten) :
    quotation.document.lines =
      lead.lines ++ quotation.lines.map (quotation.margin ++ ·) := by
  have hlineFeed : '\n' ∉ quotation.margin :=
    Text.not_mem_margin hquotation.margin (by decide)
  have hreturn : '\r' ∉ quotation.margin :=
    Text.not_mem_margin hquotation.margin (by decide)
  have hends : lead.EndsLine := by decide
  have hfree : ∀ line ∈ quotation.lines.map (quotation.margin ++ ·), '\n' ∉ line := by
    simpa [hlineFeed] using hquotation.lineFeed_not_mem
  have hflat : (quotation.lines.flatMap fun line =>
        quotation.margin ++ line ++ ['\n']) =
      (quotation.lines.map (quotation.margin ++ ·)).flatMap fun line =>
        line ++ ['\n'] := by
    rw [List.flatMap_map]
  rw [document, Text.lines_append hends nofun, hflat, Text.splitLines_flatMap hfree,
    List.map_map]
  congr 1
  apply List.map_congr_left
  intro line hline
  have hkept : line.dropReturn = line := if_neg (hquotation.getLast?_ne line hline)
  rw [Function.comp_apply, Text.dropReturn_append hreturn, hkept]

/-- The scan of the document, up to the margin that the lines of the quotation are read
behind. -/
theorem scan_document (hquotation : quotation.IsWritten) :
    scan .english quotation.document =
      ((Scanner.scanLines .english 3 none quotation.lines).indentBy
        quotation.margin).prepend
        (scan .english lead).tokens := by
  rw [scan_eq_scanLines, hquotation.lines_document, Scanner.scanLines_append,
    Scanner.scanLines_margin hquotation.margin]
  rfl

end IsWritten

/-- The assembly behind the lead, where the step is open. -/
def leadAssembly (uri : Text) : Assembly where
  uri := uri
  policy := .attach
  pending := {}
  lastLine := 3
  phase := .body (leadFeature uri) (leadScenario uri) (some ⟨leadStep uri, .idle⟩)

theorem feedAll_lead (uri : Text) :
    (Assembly.start uri .attach).feedAll (scan .english lead).tokens =
      .ok (leadAssembly uri) := rfl

/-- The quotation is scanned as a doc string without indentation, on the lines behind
the lead. -/
theorem IsWritten.exists_scanLines (hquotation : quotation.IsWritten) :
    ∃ tokens : List Token, ∃ last,
      tokens.map Token.kind =
        (quotation.contents.map quotation.fence.escape).map .content ∧
      Scanner.scanLines .english 3 none quotation.lines =
        ⟨⟨4, .fence ⟨quotation.fence, 0, quotation.contentType?⟩⟩ ::
          (tokens ++ [⟨last, .fence ⟨quotation.fence, 0, none⟩⟩]), none⟩ := by
  obtain ⟨tokens, hkinds, hscan⟩ := quotation.fence.scan_docString
    hquotation.contentType? quotation.contents [] 3
  refine ⟨tokens, 3 + quotation.contents.length + 2, ?_, ?_⟩
  · rw [hkinds, List.map_map]
    rfl
  · rw [lines, ← contentType?_getD, hscan, Scan.prepend, Scanner.scanLines,
      List.append_nil]
    rfl

theorem IsWritten.areIndented (hquotation : quotation.IsWritten) :
    AreIndented 0 (Scanner.scanLines .english 3 none quotation.lines).tokens := by
  obtain ⟨tokens, last, hkinds, hscan⟩ := hquotation.exists_scanLines
  apply areIndented_zero
  simp only [hscan, List.map_cons, List.map_append, hkinds, List.forall_mem_cons,
    List.forall_mem_append, List.forall_mem_map, List.map_nil]
  exact ⟨rfl, fun _ _ => rfl, rfl, List.forall_mem_nil _⟩

/-- Without its margin the quotation is read as its doc string. -/
theorem IsWritten.read_lines (hquotation : quotation.IsWritten) (uri : Text) :
    (leadAssembly uri).read (Scanner.scanLines .english 3 none quotation.lines) =
      .ok (carrier uri quotation.docString) := by
  obtain ⟨tokens, last, hkinds, hscan⟩ := hquotation.exists_scanLines
  let opening : FenceLine := ⟨quotation.fence, 0, quotation.contentType?⟩
  let closing : FenceLine := ⟨quotation.fence, 0, none⟩
  have hphase : (leadAssembly uri).phase =
      .body (leadFeature uri) (leadScenario uri) (some ⟨leadStep uri, .idle⟩) := rfl
  have hfence : closing.fence = opening.fence := rfl
  have hcontents : (quotation.contents.map quotation.fence.escape).map opening.content =
      quotation.contents :=
    FenceLine.map_content_escape rfl fun line hline =>
      Fence.unescaped_of_not_isInfix (hquotation.no_escaped line hline)
  have hrun := Assembly.feedAll_docString hphase trivial 4 last hfence hkinds
  rw [hcontents] at hrun
  rw [hscan, Assembly.read, hrun]
  rfl

/-- A document that quotes text is read, and the only doc string of its only step holds
the text. -/
theorem parseFeature_document (hquotation : quotation.IsWritten) (uri : Text) :
    parseFeature uri quotation.document = .ok (carrier uri quotation.docString) := by
  -- Outside doc strings an assembly does not know of any margin.
  have hlead : (leadAssembly uri).indentBy quotation.margin.length =
      leadAssembly uri := rfl
  calc parseFeature uri quotation.document
      = (Assembly.start uri .attach).read (scan .english quotation.document) :=
        Assembly.parse_eq_read {} uri quotation.document
    _ = ((leadAssembly uri).indentBy quotation.margin.length).read
          ((Scanner.scanLines .english 3 none quotation.lines).indentBy
            quotation.margin) := by
        rw [hquotation.scan_document, Assembly.read_prepend (feedAll_lead uri), hlead]
    _ = (leadAssembly uri).read (Scanner.scanLines .english 3 none quotation.lines) :=
        Assembly.read_indentBy hquotation.margin hquotation.areIndented
          fun _ hdoc => nomatch hdoc
    _ = .ok (carrier uri quotation.docString) := hquotation.read_lines uri

/-- Lines that look like a keyword, like the fence and like half of its escaped form,
one that starts with blanks, and an empty one. -/
def intricate : Quotation where
  fence := .quotes
  margin := " \t".toList
  contentType := "\"json".toList
  contents :=
    ["Scenario: T".toList, "\"\"\"".toList, "\\\"\\\"\"\"\"".toList,
      "\t # \"\"\"\"".toList, []]

theorem parseFeature_document_intricate :
    intricate.IsWritten ∧
      intricate.document =
        ("Feature: F\nScenario: S\nGiven x\n \t\"\"\"\"json\n \tScenario: T\n"
          ++ " \t\\\"\\\"\\\"\n \t\\\"\\\\\"\\\"\\\"\"\n \t\t # \\\"\\\"\\\"\"\n \t\n"
          ++ " \t\"\"\"\n").toList ∧
      parseFeature "u".toList intricate.document =
        .ok (carrier "u".toList
          ⟨4, .quotes, some "\"json".toList,
            "Scenario: T\n\"\"\"\n\\\"\\\"\"\"\"\n\t # \"\"\"\"\n".toList⟩) := by
  have hwritten : intricate.IsWritten := by
    constructor
    case margin => exact List.all_eq_true.mp rfl
    case contentType => exact ⟨by decide +kernel, by decide +kernel⟩
    all_goals decide +kernel
  exact ⟨hwritten, by decide +kernel, parseFeature_document hwritten _⟩

end Quotation

end Gherkin
