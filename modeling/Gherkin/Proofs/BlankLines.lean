import Gherkin.Proofs.Keyword.Registered
import Gherkin.Proofs.Renumbering
import Gherkin.Proofs.Resumption
import Gherkin.Proofs.Text.Lines

/-!
# Blank lines

A blank line outside doc strings says nothing.  The scanner counts it, so that the lines
below are numbered one higher, and the assembly takes it without a change to anything
but its last line, which the next token replaces.  So whatever is read from a document,
or is reported instead, is the same with the blank line as without it, up to the numbers
of the lines below.
-/

namespace Gherkin

namespace Text

theorem isWhite_of_mem_dropReturn {line : Text} (hline : ∀ c ∈ line, isWhite c = true) :
    ∀ c ∈ line.dropReturn, isWhite c = true :=
  fun c hc => hline c (line.dropReturn_isPrefix.subset hc)

end Text

/-- A line of white space is blank, whatever literals a table registers. -/
theorem KeywordTable.IsRegular.ofLine_eq_blank {keywords : KeywordTable}
    (hregular : keywords.IsRegular) {line : Text}
    (hline : ∀ c ∈ line, isWhite c = true) :
    LineKind.ofLine keywords line = .blank := by
  have hstart : line.trimStart = [] := List.dropWhile_eq_nil_iff.mpr hline
  have htrim : line.trim = [] := by rw [Text.trim, hstart]; rfl
  have hopening : FenceLine.opening? line = none := by
    simp [FenceLine.opening?, FenceLine.openingOf?, hstart, Fence.text]
  rw [LineKind.ofLine, htrim, hregular.readLine?_nil, hopening]
  rfl

/-! ## Renumbering a scan -/

def OpenFence.mapLines (renumber : Nat → Nat) (opened : OpenFence) : OpenFence :=
  { opened with line := renumber opened.line }

def Scan.mapLines (renumber : Nat → Nat) (scanned : Scan) : Scan where
  tokens := scanned.tokens.map (Token.mapLines renumber)
  fault? := scanned.fault?.map (Diagnostic.mapLines renumber)

theorem Scan.mapLines_prepend (renumber : Nat → Nat) (tokens : List Token)
    (scanned : Scan) :
    (scanned.prepend tokens).mapLines renumber =
      (scanned.mapLines renumber).prepend (tokens.map (Token.mapLines renumber)) := by
  rw [mapLines, prepend, List.map_append]
  rfl

/-- The number of a line is only written down where a fence is opened. -/
theorem OpenFence.readLine_mapLines (renumber : Nat → Nat) (keywords : KeywordTable)
    (number : Nat) (opened? : Option OpenFence) (line : Text) :
    readLine keywords (renumber number) (opened?.map (mapLines renumber)) line =
      ((readLine keywords number opened? line).1,
        (readLine keywords number opened? line).2.map (mapLines renumber)) := by
  cases opened? with
  | none =>
      simp only [readLine, Option.map_none]
      split <;> rfl
  | some opened =>
      simp only [readLine, Option.map_some, mapLines]
      split <;> rfl

/-- Lines with other numbers are scanned into the same tokens with other numbers. -/
theorem Scanner.scanLines_mapLines (renumber : Nat → Nat) (keywords : KeywordTable)
    {read shifted : Nat} (opened? : Option OpenFence) {lines : List Text}
    (hnumber : ∀ index < lines.length,
      renumber (read + index + 1) = shifted + index + 1) :
    scanLines keywords shifted (opened?.map (OpenFence.mapLines renumber)) lines =
      (scanLines keywords read opened? lines).mapLines renumber := by
  induction lines generalizing read shifted opened? with
  | nil => cases opened? <;> rfl
  | cons line lines ih =>
      have hfirst : renumber (read + 1) = shifted + 1 := hnumber 0 (Nat.succ_pos _)
      have hrest : ∀ index < lines.length,
          renumber (read + 1 + index + 1) = shifted + 1 + index + 1 := by
        intro index hindex
        have hnext := hnumber (index + 1) (Nat.succ_lt_succ hindex)
        rwa [Nat.add_comm index 1, ← Nat.add_assoc, ← Nat.add_assoc] at hnext
      have hshifted :=
        OpenFence.readLine_mapLines renumber keywords (read + 1) opened? line
      rcases hread : OpenFence.readLine keywords (read + 1) opened? line with
        ⟨kind, after?⟩
      rw [hfirst, hread] at hshifted
      rw [scanLines_cons hshifted, scanLines_cons hread, Scan.mapLines_prepend,
        ih _ hrest, List.map_singleton, Token.mapLines, hfirst]

/-! ## Reading what was scanned -/

namespace Assembly

/-- Renumbering the lines renumbers what is read, if it respects the first line. -/
theorem read_mapLines {renumber : Nat → Nat} {assembly : Assembly} {scanned : Scan}
    (hlast : ∀ final, assembly.feedAll scanned.tokens = .ok final →
      max (renumber final.lastLine) 1 = renumber (max final.lastLine 1)) :
    (assembly.mapLines renumber).read (scanned.mapLines renumber) =
      ((assembly.read scanned).map (Feature.mapLines renumber)).mapError
        (Diagnostic.mapLines renumber) := by
  unfold read
  dsimp only [Scan.mapLines]
  rw [feedAll_mapLines]
  rcases hrun : assembly.feedAll scanned.tokens with diagnostic | final
  · rfl
  · rcases scanned.fault? with _ | diagnostic
    · exact final.finish_mapLines renumber (hlast final hrun)
    · rfl

/-- Outside doc strings a blank line changes the last line and nothing else. -/
theorem feed_blank {assembly : Assembly} (hdoc : assembly.phase.doc? = none)
    (number : Nat) :
    assembly.feed ⟨number, .blank⟩ =
      .accepted { assembly with lastLine := number } := by
  rw [feed_of_doc?_eq_none _ hdoc]
  rfl

/-- A token is taken without a look at the line before it. -/
theorem feedAll_withLastLine {assembly : Assembly} {tokens : List Token}
    (htokens : tokens ≠ []) (last : Nat) :
    { assembly with lastLine := last }.feedAll tokens = assembly.feedAll tokens := by
  obtain ⟨token, tokens, rfl⟩ := List.exists_cons_of_ne_nil htokens
  rfl

/-- A blank line between two tokens makes no difference outside doc strings. -/
theorem read_insert_blank {assembly : Assembly} {front : List Token} {scanned : Scan}
    (hdoc : ∀ reached, assembly.feedAll front = .ok reached → reached.phase.doc? = none)
    (htokens : scanned.tokens ≠ []) (number : Nat) :
    assembly.read ((scanned.prepend [⟨number, .blank⟩]).prepend front) =
      assembly.read (scanned.prepend front) := by
  have hrun : assembly.feedAll (front ++ ([⟨number, .blank⟩] ++ scanned.tokens)) =
      assembly.feedAll (front ++ scanned.tokens) := by
    rw [feedAll_append, feedAll_append]
    rcases hfront : assembly.feedAll front with diagnostic | reached
    · rfl
    · have hblank := feed_blank (hdoc reached hfront) number
      simp only [Except.bind, List.singleton_append, feedAll_cons, hblank]
      exact feedAll_withLastLine htokens number
  simp only [read, Scan.prepend, hrun]

end Assembly

/-! ## Documents with a blank line more -/

/-- The number of a line behind one that is put in below the first `count` lines. -/
def shiftBelow (count number : Nat) : Nat :=
  if number ≤ count then number else number + 1

/-- The first line stands in for the last one of an empty document only. -/
theorem max_shiftBelow {count number : Nat} (hbelow : count < number) :
    max (shiftBelow count number) 1 = shiftBelow count (max number 1) := by
  rw [Nat.max_eq_left (Nat.one_le_of_lt hbelow), shiftBelow,
    if_neg (Nat.not_le.mpr hbelow)]
  exact Nat.max_eq_left (Nat.le_add_left 1 number)

/-- Between the tokens of two parts stands the blank line, and behind it all lines have
moved. -/
theorem Scanner.scanLines_insert_blank {keywords : KeywordTable}
    (hregular : keywords.IsRegular) {above : List Text} {blank : Text}
    (hblank : ∀ c ∈ blank, isWhite c = true)
    (hclosed : openedBehind keywords 0 none above = none) (below : List Text) :
    ∃ scanned : Scan, scanned.tokens.length = below.length ∧
      scanLines keywords 0 none (above ++ blank :: below) =
        (scanned.prepend [⟨above.length + 1, .blank⟩]).prepend
          (scanLines keywords 0 none above).tokens ∧
      (scanLines keywords 0 none (above ++ below)).mapLines (shiftBelow above.length) =
        scanned.prepend (scanLines keywords 0 none above).tokens := by
  have hread :
      OpenFence.readLine keywords (above.length + 1) none blank = (.blank, none) := by
    rw [OpenFence.readLine, hregular.ofLine_eq_blank hblank]
  have habove : scanLines keywords 0 none above =
      (scanLines keywords 0 none above).mapLines (shiftBelow above.length) :=
    scanLines_mapLines _ keywords none fun index hindex => if_pos (by omega)
  have hbelow : scanLines keywords (above.length + 1) none below =
      (scanLines keywords above.length none below).mapLines (shiftBelow above.length) :=
    scanLines_mapLines _ keywords none fun index _ => by
      rw [shiftBelow, if_neg (by omega)]
      omega
  refine ⟨scanLines keywords (above.length + 1) none below,
    length_tokens_scanLines _ _ _ _, ?_, ?_⟩
  · rw [scanLines_append, hclosed, Nat.zero_add, scanLines_cons hread]
  · rw [scanLines_append, hclosed, Nat.zero_add, Scan.mapLines_prepend, ← hbelow]
    exact congrArg (Scan.prepend · _) (congrArg Scan.tokens habove).symm

section Parse

variable {config : Config} {uri above below spaces : Text}

/-- What is scanned from a document with a blank line more, and what from the document
itself with the lines below moved. -/
theorem scan_insert_blank {keywords : KeywordTable} (hkeywords : keywords.IsBuilt)
    (hend : above.EndsLine) (hclosed : (scan keywords above).fault? = none)
    (hbelow : below ≠ []) (hmark : above = [] → below.head? ≠ some '\uFEFF')
    (hspaces : ∀ c ∈ spaces, isWhite c = true ∧ c ≠ '\n') :
    ∃ scanned : Scan, scanned.tokens ≠ [] ∧
      scan keywords (above ++ (spaces ++ '\n' :: below)) =
        (scanned.prepend [⟨above.lines.length + 1, .blank⟩]).prepend
          (scan keywords above).tokens ∧
      (scan keywords (above ++ below)).mapLines (shiftBelow above.lines.length) =
        scanned.prepend (scan keywords above).tokens := by
  have hline : '\n' ∉ spaces := fun hmem => (hspaces _ hmem).2 rfl
  have hhead : spaces.head? ≠ some '\uFEFF' := fun hfirst =>
    absurd (hspaces _ (List.mem_of_mem_head? hfirst)).1 (by decide)
  have hblank := Text.isWhite_of_mem_dropReturn fun c hc => (hspaces c hc).1
  have hopened : Scanner.openedBehind keywords 0 none above.lines = none := by
    rwa [scan_eq_scanLines, Scanner.fault?_scanLines, Option.map_eq_none_iff] at hclosed
  obtain ⟨scanned, hlength, hscanned, hshifted⟩ :=
    Scanner.scanLines_insert_blank hkeywords.isRegular hblank hopened
      ((Text.splitLines below).map Text.dropReturn)
  have hsplit : Text.splitLines below ≠ [] := mt Text.splitLines_eq_nil_iff.mp hbelow
  refine ⟨scanned, fun htokens => hsplit ?_, ?_, ?_⟩
  · rw [htokens, List.length_map] at hlength
    exact List.length_eq_zero_iff.mp hlength.symm
  · rw [scan_eq_scanLines, Text.lines_insert_line hend hline hhead, hscanned,
      scan_eq_scanLines]
  · rw [scan_eq_scanLines, Text.lines_append hend hmark, hshifted, scan_eq_scanLines]

/-- Behind a part that something follows, the last line is below that part. -/
theorem length_lines_lt_lastLine {final : Assembly} (hend : above.EndsLine)
    (hbelow : below ≠ []) (hmark : above = [] → below.head? ≠ some '\uFEFF')
    (hrun : (Assembly.start uri config.trailingComments).feedAll
      (scan config.keywords (above ++ below)).tokens = .ok final) :
    above.lines.length < final.lastLine := by
  have hlast : final.lastLine = 0 + (above ++ below).lines.length :=
    Assembly.lastLine_of_feedAll hrun rfl
  have hback : 0 < (Text.splitLines below).length :=
    List.length_pos_iff.mpr (mt Text.splitLines_eq_nil_iff.mp hbelow)
  rw [Text.lines_append hend hmark, List.length_append, List.length_map] at hlast
  omega

/-- A blank line outside doc strings moves the lines below by one and changes nothing
else, neither in what is read nor in what is reported. -/
theorem parse_insert_blank (hkeywords : config.keywords.IsBuilt) (hend : above.EndsLine)
    (hclosed : (scan config.keywords above).fault? = none) (hbelow : below ≠ [])
    (hmark : above = [] → below.head? ≠ some '\uFEFF')
    (hspaces : ∀ c ∈ spaces, isWhite c = true ∧ c ≠ '\n') :
    parse config uri (above ++ (spaces ++ '\n' :: below)) =
      ((parse config uri (above ++ below)).map
          (Feature.mapLines (shiftBelow above.lines.length))).mapError
        (Diagnostic.mapLines (shiftBelow above.lines.length)) := by
  let start := Assembly.start uri config.trailingComments
  let shift := shiftBelow above.lines.length
  obtain ⟨scanned, htokens, hscanned, hshifted⟩ :=
    scan_insert_blank hkeywords hend hclosed hbelow hmark hspaces
  have hdoc (reached : Assembly)
      (hrun : start.feedAll (scan config.keywords above).tokens = .ok reached) :
      reached.phase.doc? = none := by
    obtain ⟨scanner, hopened, hlock⟩ := lockstep_of_feedAll hrun hclosed
    exact hlock.doc?_eq_none hopened
  calc parse config uri (above ++ (spaces ++ '\n' :: below))
      = start.read ((scanned.prepend [⟨above.lines.length + 1, .blank⟩]).prepend
          (scan config.keywords above).tokens) := by
        rw [Assembly.parse_eq_read, hscanned]
    _ = start.read (scanned.prepend (scan config.keywords above).tokens) :=
        Assembly.read_insert_blank hdoc htokens _
    _ = (start.mapLines shift).read
          ((scan config.keywords (above ++ below)).mapLines shift) := by
        rw [hshifted]
        rfl
    _ = ((parse config uri (above ++ below)).map (Feature.mapLines shift)).mapError
          (Diagnostic.mapLines shift) :=
        Assembly.read_mapLines fun final hrun =>
          max_shiftBelow (length_lines_lt_lastLine hend hbelow hmark hrun)

end Parse

/-- A document up to a row of one cell. -/
def documentToRow : Text :=
  "Feature: F\nScenario: S\nGiven x\n| a |\n".toList

/-- A row that does not fit. -/
def widerRow : Text :=
  "| b | c |\n".toList

theorem parse_insert_blank_documentToRow :
    KeywordTable.english.IsBuilt ∧ documentToRow.EndsLine ∧
      (scan .english documentToRow).fault? = none ∧
      widerRow ≠ [] ∧ (∀ c ∈ " \t".toList, isWhite c = true ∧ c ≠ '\n') ∧
      parse {} "u".toList (documentToRow ++ widerRow) =
        .error ⟨5, .inconsistentWidth 1 2 4⟩ ∧
      parse {} "u".toList (documentToRow ++ (" \t".toList ++ '\n' :: widerRow)) =
        .error ⟨6, .inconsistentWidth 1 2 4⟩ := by
  have hend : documentToRow.EndsLine := fun _ hc => (Option.some.inj hc).symm
  have hclosed : (scan .english documentToRow).fault? = none := rfl
  have hbelow : widerRow ≠ [] := List.cons_ne_nil _ _
  have hspaces : ∀ c ∈ " \t".toList, isWhite c = true ∧ c ≠ '\n' :=
    List.forall_mem_cons.mpr ⟨by decide, List.forall_mem_singleton.mpr (by decide)⟩
  have hparse : parse {} "u".toList (documentToRow ++ widerRow) =
      .error ⟨5, .inconsistentWidth 1 2 4⟩ := rfl
  have hinserted :
      parse {} "u".toList (documentToRow ++ (" \t".toList ++ '\n' :: widerRow)) = _ :=
    parse_insert_blank .english hend hclosed hbelow nofun hspaces
  rw [hparse] at hinserted
  exact ⟨.english, hend, hclosed, hbelow, hspaces, hparse, hinserted⟩

end Gherkin
