import Gherkin.Proofs.Attachment
import Gherkin.Proofs.Diagnosis

/-!
# Rows that do not fit

A row is refused if it is wider or narrower than the first row of its table.  What is
reported then is true of the lines of the document: the first row is the one that the
report names, it stands behind the keyword or the doc string that the table begins at
with no row between them, and from there down to the refused row there are only rows
that fit, comments, tags and blank lines.  All of this is history to the assembly, which
keeps the first row and nothing else.  So the tokens read so far are related to the row
kept, and every move is shown to keep the relation.
-/

namespace Gherkin

/-- A line behind which a table goes on: it opens no construct and is no line of a doc
string. -/
def LineKind.LeavesTable : LineKind → Prop
  | keyword _ | fence _ | content _ => False
  | _ => True

namespace LineKind

variable {kind : LineKind} {width : Nat}

theorem IsAnnotation.leavesTable (hkind : kind.IsAnnotation) : kind.LeavesTable := by
  cases kind <;> first | exact hkind.elim | trivial

theorem IsRow.leavesTable (hrow : kind.IsRow width) : kind.LeavesTable := by
  obtain ⟨raw, cells, rfl, -⟩ := isRow_iff.mp hrow
  trivial

/-- A row has a cell. -/
theorem IsRow.pos (hrow : kind.IsRow width) : 0 < width := by
  obtain ⟨raw, cells, -, hcells, rfl⟩ := isRow_iff.mp hrow
  exact List.length_pos_iff.mpr (Cells.areTrimmed_of_decode hcells).ne_nil

end LineKind

/-- What the tokens read so far are to the table that the next row belongs to: nothing
of it has come yet, or its first row is the one given. -/
inductive TableSoFar : List Token → Option Row → Prop
  | keyword {tokens : List Token} {token : Token} {opening : KeywordLine}
      (hkind : token.kind = .keyword opening) : TableSoFar (tokens ++ [token]) none
  | fence {tokens : List Token} {token : Token} {closing : FenceLine}
      (hkind : token.kind = .fence closing) : TableSoFar (tokens ++ [token]) none
  | other {tokens : List Token} {first? : Option Row} {token : Token}
      (htable : TableSoFar tokens first?) (hleaves : token.kind.LeavesTable)
      (hrow : ∀ raw, token.kind ≠ .tableRow raw) : TableSoFar (tokens ++ [token]) first?
  | firstRow {tokens : List Token} {row : Row} {token : Token}
      (htable : TableSoFar tokens none) (hrow : token.kind.IsRow row.cells.length)
      (hline : token.line = row.line) : TableSoFar (tokens ++ [token]) (some row)
  | nextRow {tokens : List Token} {first : Row} {token : Token}
      (htable : TableSoFar tokens (some first))
      (hrow : token.kind.IsRow first.cells.length) :
      TableSoFar (tokens ++ [token]) (some first)

namespace TableSoFar

variable {tokens : List Token} {token : Token}

/-- A row that fits is the first one or goes on with the table. -/
theorem row {first? : Option Row} {node : Node} {raw : Text} {cells : List Text}
    (htable : TableSoFar tokens first?) (hkind : token.kind = .tableRow raw)
    (hcells : Cells.decode raw = .ok cells)
    (hwidth : ∀ first ∈ first?, first.cells.length = cells.length)
    (hline : token.line = node.line) :
    TableSoFar (tokens ++ [token]) (some (first?.getD ⟨node, cells⟩)) := by
  have hrow : token.kind.IsRow cells.length := hkind ▸ LineKind.isRow_of_decode hcells
  cases first? with
  | none => exact htable.firstRow hrow hline
  | some first => exact htable.nextRow (hwidth first rfl ▸ hrow)

/-- In front of the first row stands a keyword or a fence, and no row between them. -/
theorem exists_boundary (htable : TableSoFar tokens none) :
    ∃ above boundary gap, tokens = above ++ boundary :: gap ∧
      ((∃ opening, boundary.kind = .keyword opening) ∨
        ∃ closing, boundary.kind = .fence closing) ∧
      ∀ token ∈ gap, token.kind.LeavesTable ∧ ∀ raw, token.kind ≠ .tableRow raw := by
  generalize hfirst : (none : Option Row) = first? at htable
  induction htable with
  | keyword hkind => exact ⟨_, _, [], rfl, .inl ⟨_, hkind⟩, nofun⟩
  | fence hkind => exact ⟨_, _, [], rfl, .inr ⟨_, hkind⟩, nofun⟩
  | @other _ _ token _ hleaves hrow ih =>
      obtain ⟨above, boundary, gap, rfl, hboundary, hgap⟩ := ih hfirst
      refine ⟨above, boundary, gap ++ [token], by simp, hboundary, ?_⟩
      exact List.forall_mem_append.mpr
        ⟨hgap, List.forall_mem_singleton.mpr ⟨hleaves, hrow⟩⟩
  | firstRow | nextRow => cases hfirst

/-- Behind the first row all rows are as wide as it is. -/
theorem exists_first {first : Row} (htable : TableSoFar tokens (some first)) :
    ∃ front token between, tokens = front ++ token :: between ∧ TableSoFar front none ∧
      token.kind.IsRow first.cells.length ∧ token.line = first.line ∧
      ∀ other ∈ between, other.kind.LeavesTable ∧
        ∀ raw, other.kind = .tableRow raw → other.kind.IsRow first.cells.length := by
  generalize hfirst : some first = first? at htable
  induction htable with
  | keyword | fence => cases hfirst
  | @other _ _ other _ hleaves hrow ih =>
      obtain ⟨front, token, between, rfl, hfront, hkind, hline, hbetween⟩ := ih hfirst
      refine ⟨front, token, between ++ [other], by simp, hfront, hkind, hline, ?_⟩
      exact List.forall_mem_append.mpr ⟨hbetween, List.forall_mem_singleton.mpr
        ⟨hleaves, fun raw hraw => absurd hraw (hrow raw)⟩⟩
  | firstRow htable hrow hline =>
      obtain rfl := Option.some.inj hfirst
      exact ⟨_, _, [], rfl, htable, hrow, hline, nofun⟩
  | @nextRow _ _ other _ hrow ih =>
      obtain ⟨front, token, between, rfl, hfront, hkind, hline, hbetween⟩ := ih hfirst
      obtain rfl := Option.some.inj hfirst
      refine ⟨front, token, between ++ [other], by simp, hfront, hkind, hline, ?_⟩
      exact List.forall_mem_append.mpr
        ⟨hbetween, List.forall_mem_singleton.mpr ⟨hrow.leavesTable, fun _ _ => hrow⟩⟩

end TableSoFar

/-! ## What a move does to the table -/

namespace Phase

variable {node : Node} {tokens : List Token} {token : Token} {phase next : Phase}

/-- A row would belong to the open step or to the open group. -/
def TakesRows : Phase → Prop
  | body _ _ (some ⟨_, slot⟩) => slot.IsClosed
  | examples _ _ _ => True
  | _ => False

theorem takesRows_of_firstRow? {first : Row} (hfirst : phase.firstRow? = some first) :
    phase.TakesRows := by
  rcases phase with _ | _ | ⟨_, _, _ | ⟨_, _ | _ | _⟩⟩ | _
  case body.some.table | examples => trivial
  all_goals cases hfirst

theorem Opens.tableSoFar (hopens : phase.Opens node token.kind next)
    (hline : token.line = node.line)
    (htable : phase.TakesRows → TableSoFar tokens phase.firstRow?)
    (htakes : next.TakesRows) : TableSoFar (tokens ++ [token]) next.firstRow? := by
  generalize hkind : token.kind = kind at hopens
  cases hopens with
  | feature | background | container => exact htakes.elim
  | examples | step => exact .keyword hkind
  | stepRow hslot hcells hwidth => exact (htable hslot).row hkind hcells hwidth hline
  | @groupRow _ _ group _ cells hcells hwidth =>
      have hheader : Examples.header?
          { group with rows := group.rows ++ [⟨node, cells⟩] } =
          some (group.header?.getD ⟨node, cells⟩) := by
        rw [Examples.header?, List.head?_append, Examples.header?]
        cases group.rows.head? <;> rfl
      rw [firstRow?, hheader]
      exact (htable trivial).row hkind hcells hwidth hline

theorem Extends.tableSoFar {line : Nat} (hextends : phase.Extends line token.kind next)
    (htable : phase.TakesRows → TableSoFar tokens phase.firstRow?)
    (htakes : next.TakesRows) : TableSoFar (tokens ++ [token]) next.firstRow? := by
  generalize hkind : token.kind = kind at hextends
  cases hextends with
  | pass | featureText | containerText | opening | content => exact htakes.elim
  | groupText => exact .other (htable trivial) (hkind ▸ trivial) (hkind ▸ nofun)
  | closing => exact .fence hkind

end Phase

namespace Assembly

/-- Wherever a row could come next, the tokens read so far lead up to its table. -/
theorem tableSoFar_of_feedAll {uri : Text} {policy : TrailingComments}
    {tokens : List Token} {final : Assembly}
    (hrun : (start uri policy).feedAll tokens = .ok final)
    (htakes : final.phase.TakesRows) : TableSoFar tokens final.phase.firstRow? := by
  let invariant (front : List Token) (assembly : Assembly) : Prop :=
    assembly.phase.TakesRows → TableSoFar front assembly.phase.firstRow?
  suffices hfinal : invariant tokens final from hfinal htakes
  apply feedAll_induction hrun False.elim
  intro front token assembly next _ htable hmove
  cases hmove with
  | annotate _ hkind =>
      exact fun htakes => .other (htable htakes) hkind.leavesTable hkind.ne_tableRow
  | opens hopens => exact hopens.tableSoFar rfl htable
  | extend hextends => exact hextends.tableSoFar htable

end Assembly

/-! ## Doc strings above a line -/

/-- Every token of a document is read below the fence that the tokens above leave open.
-/
theorem exists_reads_of_scan_eq_append {keywords : KeywordTable} {document : Text}
    {front back : List Token} {token : Token}
    (htokens : (scan keywords document).tokens = front ++ token :: back) :
    ∃ opened? after?, Brackets front opened? ∧
      OpenFence.Reads token.line opened? token.kind after? := by
  let lines := document.lines
  have hfront : (Scanner.scanLines keywords 0 none (lines.take front.length)).tokens =
      front := by
    rw [← Scanner.take_tokens_scanLines, ← scan_eq_scanLines, htokens, List.take_left]
  have hbrackets : Brackets front
      (Scanner.openedBehind keywords 0 none (lines.take front.length)) := by
    have hlines : Brackets
        (Scanner.scanLines keywords 0 none (lines.take front.length)).tokens
      (Scanner.openedBehind keywords 0 none (lines.take front.length)) := .of_scanLines
    rwa [hfront] at hlines
  have hsplit := congrArg Scan.tokens (Scanner.scanLines_append keywords 0 none
    (lines.take front.length) (lines.drop front.length))
  rw [List.take_append_drop, ← scan_eq_scanLines, htokens, Scan.prepend,
    hfront] at hsplit
  have hback := List.append_cancel_left hsplit
  rcases hdrop : lines.drop front.length with _ | ⟨line, rest⟩ <;> rw [hdrop] at hback
  · cases hback
  · obtain ⟨rfl, -⟩ := List.cons.inj hback
    exact ⟨_, _, hbrackets, OpenFence.reads_readLine _ _ _ _⟩

/-- Above a line that is outside doc strings all doc strings are closed. -/
theorem exists_docStrings_of_leavesTable {keywords : KeywordTable} {document : Text}
    {front back : List Token} {token : Token}
    (htokens : (scan keywords document).tokens = front ++ token :: back)
    (hleaves : token.kind.LeavesTable) : ∃ docs, DocStrings front docs := by
  obtain ⟨opened?, after?, hbrackets, hreads⟩ := exists_reads_of_scan_eq_append htokens
  generalize token.kind = kind at hleaves hreads
  cases hreads with
  | closing | content | opening => exact hleaves.elim
  | outside =>
      cases hbrackets with
      | closed hdocs => exact ⟨_, hdocs⟩

/-! ## What is reported -/

/-- A table can begin behind the token: it holds a keyword or closes a doc string. -/
def Token.BeginsTable (token : Token) (above : List Token) : Prop :=
  (∃ opening, token.kind = .keyword opening) ∨
    (∃ closing, token.kind = .fence closing) ∧
      ∃ docs, DocStrings (above ++ [token]) docs

/-- The row at line `number` is not as wide as the table that begins with the row at
line `firstLine`. -/
def Misfit (tokens : List Token) (number expected found firstLine : Nat) : Prop :=
  ∃ above boundary gap first between last below,
    tokens = above ++ boundary :: (gap ++ first :: (between ++ last :: below)) ∧
      boundary.BeginsTable above ∧
      (∀ token ∈ gap, token.kind.LeavesTable ∧ ∀ raw, token.kind ≠ .tableRow raw) ∧
      first.line = firstLine ∧ first.kind.IsRow expected ∧
      (∀ token ∈ between, token.kind.LeavesTable ∧
        ∀ raw, token.kind = .tableRow raw → token.kind.IsRow expected) ∧
      last.line = number ∧ last.kind.IsRow found

/-- A row that does not fit the table above it is a misfit of the tokens. -/
theorem TableSoFar.misfit {keywords : KeywordTable} {document : Text}
    {front back : List Token} {token : Token} {first : Row} {found : Nat}
    (htable : TableSoFar front (some first))
    (htokens : (scan keywords document).tokens = front ++ token :: back)
    (hrow : token.kind.IsRow found) :
    Misfit (scan keywords document).tokens token.line first.cells.length found
      first.line := by
  obtain ⟨front, head, between, rfl, hfront, hhead, hline, hbetween⟩ :=
    htable.exists_first
  obtain ⟨above, boundary, gap, rfl, hboundary, hgap⟩ := hfront.exists_boundary
  have hsplit : (scan keywords document).tokens =
      above ++ boundary :: (gap ++ head :: (between ++ token :: back)) := by
    rw [htokens]
    simp
  refine ⟨above, boundary, gap, head, between, token, back, hsplit, ?_, hgap, hline,
    hhead, hbetween, rfl, hrow⟩
  refine hboundary.imp_right fun hclosing => ⟨hclosing, ?_⟩
  -- Whatever is next behind the boundary is outside doc strings,
  -- so the fence has closed one.
  rw [List.append_cons] at hsplit
  cases gap with
  | nil => exact exists_docStrings_of_leavesTable hsplit hhead.leavesTable
  | cons next gap =>
      exact exists_docStrings_of_leavesTable hsplit (hgap next List.mem_cons_self).1

/-- Only a row that does not fit is reported as one. -/
theorem exists_firstRow?_of_rejected {assembly left : Assembly} {token : Token}
    {number expected found firstLine : Nat}
    (hfed : assembly.feed token =
      .rejected left ⟨number, .inconsistentWidth expected found firstLine⟩) :
    ∃ first, assembly.phase.firstRow? = some first ∧ token.line = number ∧
      first.line = firstLine ∧ first.cells.length = expected ∧
      token.kind.IsRow found ∧ expected ≠ found := by
  obtain ⟨cause, hrefusal, hdiagnostic⟩ := Assembly.exists_refusal_of_feed hfed
  obtain ⟨rfl, rfl⟩ := Diagnostic.mk.inj hdiagnostic
  generalize hcause :
    Cause.inconsistentWidth expected found firstLine = cause at hrefusal
  cases hrefusal with
  | noPlace hrefuses =>
      generalize assembly.phase = phase at hrefuses
      generalize token.kind = kind at hrefuses
      cases hrefuses <;> cases hcause
  | width hfirst hkind hcells hwidth =>
      obtain ⟨rfl, rfl, rfl⟩ := Cause.inconsistentWidth.inj hcause
      exact ⟨_, hfirst, rfl, rfl, rfl, hkind ▸ LineKind.isRow_of_decode hcells, hwidth⟩
  | otherFence => cases hcause

/-- A report of a row that does not fit is true of the document: the two lines named are
rows of the widths named, the first of them begins the table that the other does not
fit, and nothing between them ends that table or has another width. -/
theorem parse_reports_misfit {config : Config} {uri document : Text}
    {number expected found firstLine : Nat}
    (hparse : parse config uri document =
      .error ⟨number, .inconsistentWidth expected found firstLine⟩) :
    firstLine < number ∧ expected ≠ found ∧ 0 < expected ∧ 0 < found ∧
      Misfit (scan config.keywords document).tokens number expected found
        firstLine := by
  have hrejects : Rejects config uri document
      ⟨number, .inconsistentWidth expected found firstLine⟩ := by
    rcases parse_eq_error_iff.mp hparse with hrejects | hends | hlacks
    · exact hrejects
    · obtain ⟨_, _, _, _, _, -, -, -, -, -, hunclosed⟩ := hends
      cases (Diagnostic.mk.inj hunclosed).2
    · obtain ⟨-, -, -, -, hmissing⟩ := hlacks
      cases (Diagnostic.mk.inj hmissing).2
  obtain ⟨front, token, back, reached, left, htokens, -, -, hfront, hfed⟩ := hrejects
  obtain ⟨first, hfirst, rfl, rfl, rfl, hrow, hne⟩ := exists_firstRow?_of_rejected hfed
  have htable : TableSoFar front (some first) := by
    have hsofar := Assembly.tableSoFar_of_feedAll hfront
      (Phase.takesRows_of_firstRow? hfirst)
    rwa [hfirst] at hsofar
  obtain ⟨above, head, between, rfl, -, hhead, hline, -⟩ := htable.exists_first
  have hlt : head.line < token.line := by
    have hlines := pairwise_line_scan config.keywords document
    rw [htokens] at hlines
    exact (List.pairwise_append.mp hlines).2.2 head (by simp) token List.mem_cons_self
  exact ⟨hline ▸ hlt, hne, hhead.pos, hrow.pos, htable.misfit htokens hrow⟩

/-- A step with a row of one cell above a doc string, and below it a table of two cells
with a row that does not fit. -/
def unevenDocument : Text :=
  ("Feature: F\nScenario: S\nGiven x\n| a |\n\"\"\"\n\"\"\"\n# c\n"
    ++ "| b | c |\n@t\n\n| d | e |\n| f |\nThen y\n").toList

theorem parse_reports_misfit_unevenDocument :
    parse {} "u".toList unevenDocument = .error ⟨12, .inconsistentWidth 2 1 8⟩ ∧
      8 < 12 ∧ 2 ≠ 1 ∧ 0 < 2 ∧ 0 < 1 ∧
      Misfit (scan .english unevenDocument).tokens 12 2 1 8 := by
  have hparse : parse {} "u".toList unevenDocument =
      .error ⟨12, .inconsistentWidth 2 1 8⟩ := rfl
  exact ⟨hparse, parse_reports_misfit hparse⟩

end Gherkin
