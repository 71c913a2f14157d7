import Gherkin.Proofs.Assembly.Refusal
import Gherkin.Proofs.Parsed
import Gherkin.Proofs.Token.Scanned
import Gherkin.Proofs.Text.Lines

/-!
# Indented documents

A margin of blanks in front of every line is dropped wherever lines are trimmed.  Inside
a doc string lines are not trimmed: the scanner keeps them with the margin, and the
assembly cuts off as many characters as the opening fence is indented.  The fence is
indented by the margin as well, so the content that is left is the same, as long as no
line of it is indented less than its fence.
-/

namespace Gherkin

namespace Text

/-- The text with the margin in front of every line.  The flag says whether a line
starts where the text does. -/
def indentFrom (margin : Text) : (fresh : Bool) → Text → Text
  | _, [] => []
  | fresh, c :: rest =>
      (if fresh then margin else []) ++ c :: indentFrom margin (c == '\n') rest

/-- The text with the margin in front of every line, also of an empty one. -/
def indentLines (text margin : Text) : Text :=
  indentFrom margin true text

/-- The margin goes in front of all lines, but in front of the first only if it starts
here. -/
def indentPieces (margin : Text) (fresh : Bool) : List Text → List Text
  | [] => []
  | line :: lines =>
      ((if fresh then margin else []) ++ line) :: lines.map (margin ++ ·)

theorem indentPieces_true (margin : Text) (lines : List Text) :
    indentPieces margin true lines = lines.map (margin ++ ·) := by
  cases lines <;> rfl

/-- What has no line feed belongs to the first line behind it. -/
theorem splitLines_append_front {front text line : Text} {lines : List Text}
    (hfront : '\n' ∉ front) (htext : splitLines text = line :: lines) :
    splitLines (front ++ text) = (front ++ line) :: lines := by
  induction front with
  | nil => exact htext
  | cons c front ih =>
      have hc : c ≠ '\n' := (List.ne_of_not_mem_cons hfront).symm
      have hrest := ih (List.not_mem_of_not_mem_cons hfront)
      rw [List.cons_append, splitLines, if_neg hc, hrest]
      rfl

theorem splitLines_indentFrom {margin : Text} (hmargin : '\n' ∉ margin) (fresh : Bool)
    (text : Text) :
    splitLines (indentFrom margin fresh text) =
      indentPieces margin fresh (splitLines text) := by
  induction text generalizing fresh with
  | nil => rfl
  | cons c rest ih =>
      have hfront : '\n' ∉ if fresh then margin else [] := by
        cases fresh with
        | true => exact hmargin
        | false => exact List.not_mem_nil
      rw [indentFrom]
      by_cases hc : c = '\n'
      · have hback : splitLines (c :: indentFrom margin (c == '\n') rest) =
            [] :: (splitLines rest).map (margin ++ ·) := by
          rw [hc, splitLines_lineFeed, beq_self_eq_true, ih, indentPieces_true]
        rw [splitLines_append_front hfront hback, hc, splitLines_lineFeed]
        rfl
      · -- The line goes on behind `c`, so what comes next gets no margin in front.
        have hrest := ih false
        have hback : splitLines (c :: indentFrom margin (c == '\n') rest) =
            indentPieces margin false (splitLines (c :: rest)) := by
          rw [beq_false_of_ne hc, splitLines, if_neg hc, hrest, splitLines, if_neg hc]
          cases splitLines rest <;> rfl
        have hne : splitLines (c :: rest) ≠ [] :=
          mt splitLines_eq_nil_iff.mp (List.cons_ne_nil c rest)
        obtain ⟨line, lines, hlines⟩ := List.exists_cons_of_ne_nil hne
        rw [hlines] at hback ⊢
        exact splitLines_append_front hfront hback

section Margin

variable {margin : Text} (hmargin : ∀ c ∈ margin, isBlank c = true)

include hmargin

theorem not_mem_margin {c : Char} (hc : isBlank c = false) : c ∉ margin := by
  intro hmem
  rw [hmargin c hmem] at hc
  cases hc

theorem head?_indentLines {document : Text} (hmark : document.head? ≠ some '\uFEFF') :
    (document.indentLines margin).head? ≠ some '\uFEFF' := by
  cases document with
  | nil => exact nofun
  | cons c rest =>
      cases hcases : margin with
      | nil => exact hmark
      | cons d back =>
          intro hhead
          apply not_mem_margin hmargin (c := '\uFEFF') (by decide)
          rw [hcases, Option.some.inj hhead]
          exact List.mem_cons_self

/-- The margin goes in front of every line of the document. -/
theorem lines_indentLines {document : Text} (hmark : document.head? ≠ some '\uFEFF') :
    (document.indentLines margin).lines = document.lines.map (margin ++ ·) := by
  have hlineFeed : '\n' ∉ margin := not_mem_margin hmargin (by decide)
  have hreturn : '\r' ∉ margin := not_mem_margin hmargin (by decide)
  have hhead := head?_indentLines hmargin hmark
  calc (document.indentLines margin).lines
      = ((splitLines document).map (margin ++ ·)).map dropReturn := by
        rw [lines, dropByteOrderMark_of_head? hhead, indentLines,
          splitLines_indentFrom hlineFeed, indentPieces_true]
    _ = ((splitLines document).map dropReturn).map (margin ++ ·) := by
        rw [List.map_map, List.map_map]
        apply List.map_congr_left
        exact fun line _ => dropReturn_append hreturn line
    _ = document.lines.map (margin ++ ·) := by
        rw [lines, dropByteOrderMark_of_head? hmark]

variable (line : Text)

theorem trimStart_margin : (margin ++ line).trimStart = line.trimStart :=
  List.dropWhile_append_of_pos fun c hc => isWhite_of_isBlank (hmargin c hc)

theorem trim_margin : (margin ++ line).trim = line.trim := by
  rw [trim, trimStart_margin hmargin, trim]

theorem indentation_margin :
    (margin ++ line).indentation = margin.length + line.indentation := by
  rw [indentation, List.takeWhile_append_of_pos hmargin, List.length_append,
    indentation]

end Margin

end Text

/-! ## Indented lines -/

/-- The line as it is read behind a margin of the given width. -/
def FenceLine.indentBy (width : Nat) (line : FenceLine) : FenceLine :=
  { line with indent := width + line.indent }

/-- What the line is read as behind the margin: only fences and content notice it. -/
def LineKind.indentBy (margin : Text) : LineKind → LineKind
  | fence line => .fence (line.indentBy margin.length)
  | content line => .content (margin ++ line)
  | kind => kind

def Token.indentBy (margin : Text) (token : Token) : Token :=
  { token with kind := token.kind.indentBy margin }

def Scan.indentBy (margin : Text) (scanned : Scan) : Scan :=
  { scanned with tokens := scanned.tokens.map (Token.indentBy margin) }

section Margin

variable {margin : Text} (hmargin : ∀ c ∈ margin, isBlank c = true)

include hmargin

namespace FenceLine

variable (fence : Fence) (line : Text)

theorem opening?_margin :
    opening? (margin ++ line) = (opening? line).map (indentBy margin.length) := by
  have hof (fence : Fence) : openingOf? fence (margin ++ line) =
      (openingOf? fence line).map (indentBy margin.length) := by
    simp only [openingOf?, Text.trimStart_margin hmargin,
      Text.indentation_margin hmargin]
    split <;> rfl
  rw [opening?, hof, hof, opening?, Option.map_or]

theorem closing?_margin :
    closing? fence (margin ++ line) =
      (closing? fence line).map (indentBy margin.length) := by
  simp only [closing?, Text.trim_margin hmargin, Text.indentation_margin hmargin]
  split <;> rfl

end FenceLine

namespace LineKind

theorem ofLine_margin (keywords : KeywordTable) (line : Text) :
    ofLine keywords (margin ++ line) = (ofLine keywords line).indentBy margin := by
  simp only [ofLine, Text.trim_margin hmargin, FenceLine.opening?_margin hmargin]
  cases keywords.readLine? line.trim with
  | some opening => rfl
  | none =>
      dsimp only
      split
      · rfl
      · rfl
      · rfl
      · cases FenceLine.opening? line with
        | some opening => rfl
        | none =>
            dsimp only [Option.map_none]
            split <;> rfl

theorem ofContentLine_margin (fence : Fence) (line : Text) :
    ofContentLine fence (margin ++ line) =
      (ofContentLine fence line).indentBy margin := by
  simp only [ofContentLine, FenceLine.closing?_margin hmargin]
  cases FenceLine.closing? fence line <;> rfl

end LineKind

/-- The margin does not change which fence is open. -/
theorem OpenFence.readLine_margin (keywords : KeywordTable) (number : Nat)
    (opened? : Option OpenFence) (line : Text) :
    readLine keywords number opened? (margin ++ line) =
      ((readLine keywords number opened? line).1.indentBy margin,
        (readLine keywords number opened? line).2) := by
  cases opened? with
  | none =>
      simp only [readLine, LineKind.ofLine_margin hmargin]
      cases LineKind.ofLine keywords line <;> rfl
  | some opened =>
      simp only [readLine, LineKind.ofContentLine_margin hmargin]
      cases LineKind.ofContentLine opened.fence line <;> rfl

theorem Scanner.scanLines_margin (keywords : KeywordTable) (read : Nat)
    (opened? : Option OpenFence) (lines : List Text) :
    scanLines keywords read opened? (lines.map (margin ++ ·)) =
      (scanLines keywords read opened? lines).indentBy margin := by
  induction lines generalizing read opened? with
  | nil => rfl
  | cons line lines ih =>
      rw [List.map_cons, scanLines, OpenFence.readLine_margin hmargin]
      simp only [ih]
      rfl

theorem scan_indentLines {document : Text} (hmark : document.head? ≠ some '\uFEFF')
    (keywords : KeywordTable) :
    scan keywords (document.indentLines margin) =
      (scan keywords document).indentBy margin := by
  rw [scan_eq_scanLines, Text.lines_indentLines hmargin hmark,
    Scanner.scanLines_margin hmargin, scan_eq_scanLines]

end Margin

/-! ## Indented doc strings -/

/-- The line has at least the given indentation if it is a line of a doc string. -/
def LineKind.IsIndented (indent : Nat) : LineKind → Prop
  | content line => indent ≤ line.indentation
  | _ => True

/-- The indentation of the last fence, below a line of the given kind. -/
def LineKind.fenceIndent (indent : Nat) : LineKind → Nat
  | fence line => line.indent
  | _ => indent

/-- No line of a doc string is indented less than the last fence above it, which is the
fence that opens the doc string.  Above the tokens that fence has the given indentation.
-/
def AreIndented (indent : Nat) : List Token → Prop
  | [] => True
  | token :: tokens =>
      token.kind.IsIndented indent ∧ AreIndented (token.kind.fenceIndent indent) tokens

instance (indent : Nat) : (kind : LineKind) → Decidable (kind.IsIndented indent)
  | .content line => inferInstanceAs (Decidable (indent ≤ line.indentation))
  | .keyword _ | .tags _ | .comment _ | .tableRow _ | .fence _ | .text _ | .blank =>
      inferInstanceAs (Decidable True)

instance decidableAreIndented :
    (indent : Nat) → (tokens : List Token) → Decidable (AreIndented indent tokens)
  | _, [] => inferInstanceAs (Decidable True)
  | indent, token :: tokens =>
      have := decidableAreIndented (token.kind.fenceIndent indent) tokens
      inferInstanceAs (Decidable (_ ∧ _))

/-- What is left of a line behind the margin is what was left of it before. -/
theorem FenceLine.content_margin {margin : Text}
    (hmargin : ∀ c ∈ margin, isBlank c = true)
    {opening : FenceLine} {line : Text} (hline : opening.indent ≤ line.indentation) :
    (opening.indentBy margin.length).content (margin ++ line) =
      opening.content line := by
  have hshifted : margin.length + opening.indent ≤ (margin ++ line).indentation := by
    rw [Text.indentation_margin hmargin]
    exact Nat.add_le_add_left hline margin.length
  have hdedent : dedent (margin.length + opening.indent) (margin ++ line) =
      dedent opening.indent line := by
    rw [dedent, if_pos hshifted, dedent, if_pos hline]
    exact List.drop_length_add_append opening.indent
  exact congrArg opening.fence.unescape hdedent

def OpenDoc.indentBy (width : Nat) (doc : OpenDoc) : OpenDoc :=
  { doc with opening := doc.opening.indentBy width }

def Slot.indentBy (width : Nat) : Slot → Slot
  | doc opened => .doc (opened.indentBy width)
  | slot => slot

def OpenStep.indentBy (width : Nat) (openStep : OpenStep) : OpenStep :=
  { openStep with slot := openStep.slot.indentBy width }

/-- The phase with the opening fence of its doc string behind a margin. -/
def Phase.indentBy (width : Nat) : Phase → Phase
  | body feature container open? =>
      .body feature container (open?.map (OpenStep.indentBy width))
  | phase => phase

def Assembly.indentBy (width : Nat) (assembly : Assembly) : Assembly :=
  { assembly with phase := assembly.phase.indentBy width }

def Outcome.indentBy (width : Nat) : Outcome → Outcome
  | accepted next => .accepted (next.indentBy width)
  | rejected left diagnostic => .rejected (left.indentBy width) diagnostic

theorem OpenDoc.push_margin {margin : Text} (hmargin : ∀ c ∈ margin, isBlank c = true)
    (doc : OpenDoc) {line : Text} (hline : doc.opening.indent ≤ line.indentation) :
    (doc.indentBy margin.length).push (margin ++ line) =
      (doc.push line).indentBy margin.length := by
  simp only [push, indentBy, FenceLine.content_margin hmargin hline]

namespace Phase

variable (width : Nat)

theorem indentBy_of_doc?_eq_none {phase : Phase} (hdoc : phase.doc? = none) :
    phase.indentBy width = phase := by
  rcases phase with _ | feature | ⟨feature, container, _ | ⟨step, _ | first | doc⟩⟩ | _
  case body.some.doc => cases hdoc
  all_goals rfl

theorem doc?_indentBy (phase : Phase) :
    (phase.indentBy width).doc? = phase.doc?.map (OpenDoc.indentBy width) := by
  rcases phase with
      _ | feature | ⟨feature, container, _ | ⟨step, _ | first | doc⟩⟩ | _ <;>
    rfl

theorem feature?_indentBy (phase : Phase) :
    (phase.indentBy width).feature? = phase.feature? := by
  rcases phase with _ | feature | ⟨feature, container, _ | openStep⟩ | _ <;> rfl

end Phase

theorem Assembly.indentBy_of_doc?_eq_none {assembly : Assembly}
    (hdoc : assembly.phase.doc? = none) (width : Nat) :
    assembly.indentBy width = assembly := by
  rw [indentBy, Phase.indentBy_of_doc?_eq_none width hdoc]

theorem Outcome.indentBy_of_doc?_eq_none {outcome : Outcome}
    (hdoc : outcome.assembly.phase.doc? = none) (width : Nat) :
    outcome.indentBy width = outcome := by
  cases outcome with
  | accepted next =>
      exact congrArg accepted (Assembly.indentBy_of_doc?_eq_none hdoc width)
  | rejected left diagnostic =>
      exact congrArg (rejected · diagnostic)
        (Assembly.indentBy_of_doc?_eq_none hdoc width)

namespace Assembly

variable {assembly : Assembly} {margin : Text}

/-- Outside doc strings only an opening fence notices the margin. -/
theorem feed_indentBy_outside (hdoc : assembly.phase.doc? = none) (margin : Text)
    (token : Token) :
    (assembly.indentBy margin.length).feed (token.indentBy margin) =
      (assembly.feed token).indentBy margin.length := by
  rcases token with ⟨line, kind⟩
  -- An assembly with no open doc string holds no indentation that could differ.
  have hkept (hfence : ∀ opening, kind ≠ .fence opening) :
      (assembly.feed ⟨line, kind⟩).indentBy margin.length =
        assembly.feed ⟨line, kind⟩ :=
    Outcome.indentBy_of_doc?_eq_none (doc?_of_feed hdoc hfence) margin.length
  rw [indentBy_of_doc?_eq_none hdoc]
  cases kind with
  | fence opening =>
      rw [feed_of_doc?_eq_none _ hdoc, feed_of_doc?_eq_none _ hdoc]
      rcases assembly with ⟨uri, policy, pending, lastLine, _ | feature |
        ⟨feature, container, _ | ⟨step, slot⟩⟩ | ⟨feature, container, group⟩⟩ <;> rfl
  | content text =>
      rw [hkept nofun, feed_of_doc?_eq_none _ hdoc, feed_of_doc?_eq_none _ hdoc]
      rfl
  | _ => exact (hkept nofun).symm

/-- Inside a doc string the content is the same, and so is the fence that closes it. -/
theorem feed_indentBy_inside
    (hmargin : ∀ c ∈ margin, isBlank c = true) {feature : Feature}
    {container : Container} {step : Step} {doc : OpenDoc}
    (hphase : assembly.phase = .body feature container (some ⟨step, .doc doc⟩))
    {token : Token} (hindented : token.kind.IsIndented doc.opening.indent) :
    (assembly.indentBy margin.length).feed (token.indentBy margin) =
      (assembly.feed token).indentBy margin.length := by
  have hmapped : (assembly.indentBy margin.length).phase =
      .body feature container (some ⟨step, .doc (doc.indentBy margin.length)⟩) := by
    rw [indentBy, hphase]
    rfl
  rw [feed_of_doc _ hmapped, feed_of_doc token hphase]
  rcases token with ⟨line, kind⟩
  cases kind with
  | content text =>
      have hpush : (doc.indentBy margin.length).push (margin ++ text) =
          (doc.push text).indentBy margin.length :=
        doc.push_margin hmargin hindented
      simp only [feedInDoc, Token.indentBy, LineKind.indentBy, hpush]
      rfl
  | fence closing =>
      simp only [feedInDoc, Token.indentBy, LineKind.indentBy]
      by_cases hfence : closing.fence = doc.opening.fence
      · rw [if_pos hfence]
        exact if_pos hfence
      · rw [if_neg hfence]
        exact if_neg hfence
  | _ => rfl

/-- The last fence above the tokens to come opened the doc string that is open. -/
def OpenedBy (assembly : Assembly) (indent : Nat) : Prop :=
  ∀ doc ∈ assembly.phase.doc?, doc.opening.indent = indent

theorem feed_indentBy (hmargin : ∀ c ∈ margin, isBlank c = true) {indent : Nat}
    (hopened : assembly.OpenedBy indent) {token : Token}
    (hindented : token.kind.IsIndented indent) :
    (assembly.indentBy margin.length).feed (token.indentBy margin) =
      (assembly.feed token).indentBy margin.length := by
  cases hdoc : assembly.phase.doc? with
  | none => exact feed_indentBy_outside hdoc margin token
  | some doc =>
      obtain ⟨feature, container, step, hphase⟩ := Phase.doc?_eq_some.mp hdoc
      rw [← hopened doc hdoc] at hindented
      exact feed_indentBy_inside hmargin hphase hindented

theorem Move.openedBy {next : Assembly} {token : Token}
    (hmove : assembly.Move token next)
    {indent : Nat} (hopened : assembly.OpenedBy indent) :
    next.OpenedBy (token.kind.fenceIndent indent) := by
  rcases token with ⟨line, kind⟩
  intro doc hnext
  cases hmove with
  | annotate hdoc =>
      cases hdoc.symm.trans hnext
  | opens hopens =>
      cases hopens.doc?_next_eq_none.symm.trans hnext
  | extend hextends =>
      generalize hphase : assembly.phase = phase at hextends
      cases hextends with
      | pass | featureText | containerText | groupText | closing => cases hnext
      | opening =>
          obtain rfl := Option.some.inj hnext
          rfl
      | @content _ _ _ before text =>
          have hbefore : before ∈ assembly.phase.doc? := by
            rw [hphase]
            rfl
          obtain rfl := Option.some.inj hnext
          exact hopened before hbefore

/-- A run behind a margin comes to the same, if all doc strings are indented as far as
their fences. -/
theorem feedAll_indentBy (hmargin : ∀ c ∈ margin, isBlank c = true) {indent : Nat}
    {tokens : List Token} (hindented : AreIndented indent tokens)
    (hopened : assembly.OpenedBy indent) :
    (assembly.indentBy margin.length).feedAll (tokens.map (Token.indentBy margin)) =
      (assembly.feedAll tokens).map (Assembly.indentBy margin.length) := by
  induction tokens generalizing assembly indent with
  | nil => rfl
  | cons token tokens ih =>
      obtain ⟨htoken, htokens⟩ := hindented
      rw [List.map_cons, feedAll_cons, feed_indentBy hmargin hopened htoken,
        feedAll_cons]
      cases hfed : assembly.feed token with
      | accepted next =>
          have hmove := feed_eq_accepted_iff.mp hfed
          exact ih htokens (hmove.openedBy hopened)
      | rejected left diagnostic => rfl

theorem finish_indentBy (assembly : Assembly) (width : Nat) :
    (assembly.indentBy width).finish = assembly.finish := by
  simp only [finish, indentBy, Phase.doc?_indentBy, Phase.feature?_indentBy]
  cases assembly.phase.doc? <;> rfl

theorem read_indentBy (hmargin : ∀ c ∈ margin, isBlank c = true) {indent : Nat}
    {scanned : Scan} (hindented : AreIndented indent scanned.tokens)
    (hopened : assembly.OpenedBy indent) :
    (assembly.indentBy margin.length).read (scanned.indentBy margin) =
      assembly.read scanned := by
  simp only [read, Scan.indentBy, feedAll_indentBy hmargin hindented hopened]
  cases assembly.feedAll scanned.tokens with
  | error diagnostic => rfl
  | ok final => simp only [Except.map, finish_indentBy]

end Assembly

/-- A margin of blanks in front of every line changes nothing that is read, if no line
of a doc string is indented less than the fence that opens it. -/
theorem parse_indentLines {config : Config} {uri document margin : Text}
    (hmark : document.head? ≠ some '\uFEFF') (hmargin : ∀ c ∈ margin, isBlank c = true)
    (hindented : AreIndented 0 (scan config.keywords document).tokens) :
    parse config uri (document.indentLines margin) = parse config uri document := by
  let start := Assembly.start uri config.trailingComments
  have hopened : start.OpenedBy 0 := nofun
  calc parse config uri (document.indentLines margin)
      = start.read ((scan config.keywords document).indentBy margin) := by
        rw [Assembly.parse_eq_read, scan_indentLines hmargin hmark]
    _ = (start.indentBy margin.length).read
          ((scan config.keywords document).indentBy margin) := rfl
    _ = start.read (scan config.keywords document) :=
        Assembly.read_indentBy hmargin hindented hopened
    _ = parse config uri document := rfl

/-- A document with a doc string that is indented as far as its fence and further. -/
def quotingDocument : Text :=
  "Feature: F\nScenario: S\nGiven x\n \"\"\"\n  q\n \t\n \"\"\"\n# end".toList

def quotingFeature : Feature where
  uri := "u".toList
  line := 1
  comments := []
  tags := []
  keyword := "Feature".toList
  name := "F".toList
  description := []
  backgrounds := []
  scenarios :=
    [{  uri := "u".toList, line := 2, comments := [], tags := []
        keyword := "Scenario".toList, name := "S".toList, description := []
        kind := .scenario
        steps :=
          [{  uri := "u".toList, line := 3, comments := [], tags := []
              keyword := "Given".toList, kind := .given, name := "x".toList
              docs := [⟨4, .quotes, none, " q\n\t".toList⟩], rows := [] }] }]
  trailingComments := ["end".toList]

theorem parse_indentLines_quotingDocument :
    quotingDocument.head? ≠ some '\uFEFF' ∧ (∀ c ∈ "\t ".toList, isBlank c = true) ∧
      AreIndented 0 (scan .english quotingDocument).tokens ∧
      quotingDocument.indentLines "\t ".toList =
        ("\t Feature: F\n\t Scenario: S\n\t Given x\n\t  \"\"\"\n\t   q\n\t  \t\n"
          ++ "\t  \"\"\"\n\t # end").toList ∧
      parse {} "u".toList (quotingDocument.indentLines "\t ".toList) =
        .ok quotingFeature := by
  have hmark : quotingDocument.head? ≠ some '\uFEFF' := by decide +kernel
  have hmargin : ∀ c ∈ "\t ".toList, isBlank c = true :=
    List.forall_mem_cons.mpr ⟨rfl, List.forall_mem_singleton.mpr rfl⟩
  have hindented : AreIndented 0 (scan .english quotingDocument).tokens := by
    decide +kernel
  have hparse : parse {} "u".toList quotingDocument = .ok quotingFeature := rfl
  have hindent : parse {} "u".toList (quotingDocument.indentLines "\t ".toList) =
      parse {} "u".toList quotingDocument := parse_indentLines hmark hmargin hindented
  exact ⟨hmark, hmargin, hindented, by decide +kernel, hindent.trans hparse⟩

end Gherkin
