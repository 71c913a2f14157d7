import Gherkin.Proofs.BlankLines
import Gherkin.Proofs.Bracketing

/-!
# Scanning from the middle of a document

All that a scanner takes along from one line to the next is the number of the lines
behind it and the fence that is open.  So outside doc strings a document can be cut
between two lines: the answers to the whole are those to the first part and then those
to the second, with the lines of the first part added to their numbers.  And a scanner
that was kept goes on like a fresh one that stands in front of the text that is left.
-/

namespace Gherkin

namespace Text

/-- The text behind its first `count` lines. -/
def dropLines : (count : Nat) → Text → Text
  | 0, text => text
  | count + 1, text => dropLines count (text.dropWhile (· != '\n')).tail

theorem splitLines_tail_dropWhile (text : Text) :
    splitLines (text.dropWhile (· != '\n')).tail = text.splitLines.tail := by
  induction text with
  | nil => rfl
  | cons c rest ih =>
      by_cases hc : c = '\n'
      · rw [hc, splitLines_lineFeed]
        rfl
      · rw [List.dropWhile_cons_of_pos (by simpa using hc), ih, splitLines, if_neg hc]
        cases splitLines rest <;> rfl

theorem splitLines_dropLines (count : Nat) (text : Text) :
    splitLines (dropLines count text) = text.splitLines.drop count := by
  induction count generalizing text with
  | zero => rfl
  | succ count ih => rw [dropLines, ih, splitLines_tail_dropWhile, List.drop_tail]

theorem count_lineFeed_dropByteOrderMark (text : Text) :
    text.dropByteOrderMark.count '\n' = text.count '\n' := by
  unfold dropByteOrderMark
  split
  · exact (List.count_cons_of_ne (by decide)).symm
  · rfl

/-- Where every line is ended, there are as many lines as line feeds. -/
theorem EndsLine.length_lines {text : Text} (hend : text.EndsLine) :
    text.lines.length = text.count '\n' := by
  have hrest := hend.of_isSuffix (dropByteOrderMark_isSuffix text)
  rw [lines, List.length_map, length_splitLines, lineCount, if_pos hrest,
    count_lineFeed_dropByteOrderMark, Nat.add_zero]

/-- A text without a mark in front is split into lines as it stands. -/
theorem lines_of_head? {text : Text} (hmark : text.head? ≠ some '\uFEFF') :
    text.lines = text.splitLines.map dropReturn := by
  rw [lines, dropByteOrderMark_of_head? hmark]

end Text

/-! ## Answers with other numbers -/

/-- The answer of a scanner with other line numbers. -/
def renumberAnswer (renumber : Nat → Nat) :
    Except Diagnostic Token → Except Diagnostic Token
  | .ok token => .ok (token.mapLines renumber)
  | .error diagnostic => .error (diagnostic.mapLines renumber)

theorem Scan.answers_mapLines (renumber : Nat → Nat) (scanned : Scan) :
    (scanned.mapLines renumber).answers =
      scanned.answers.map (renumberAnswer renumber) := by
  rcases scanned with ⟨tokens, fault?⟩
  have htokens : (tokens.map (Token.mapLines renumber)).map .ok =
      (tokens.map .ok).map (renumberAnswer renumber) := by
    rw [List.map_map, List.map_map]
    rfl
  rw [answers, answers, mapLines, List.map_append, htokens]
  cases fault? <;> rfl

theorem Scan.answers_prepend (tokens : List Token) (scanned : Scan) :
    (scanned.prepend tokens).answers = tokens.map .ok ++ scanned.answers := by
  rw [answers, prepend, List.map_append, List.append_assoc, answers]

/-- Where no fence is open at the end, there are no answers but the tokens. -/
theorem Scan.answers_of_fault?_eq_none {scanned : Scan}
    (hfault : scanned.fault? = none) :
    scanned.answers = scanned.tokens.map .ok := by
  rw [answers, hfault]
  exact List.append_nil _

/-- Outside doc strings a scanner that is further down gives the same answers with other
numbers. -/
theorem Scanner.scanLines_shift (keywords : KeywordTable) (read : Nat)
    (lines : List Text) :
    scanLines keywords read none lines =
      (scanLines keywords 0 none lines).mapLines (· + read) :=
  scanLines_mapLines (· + read) keywords none fun index _ => by omega

/-- Scanning a document is scanning its parts, if no doc string goes from one into the
other. -/
theorem scan_append {keywords : KeywordTable} {above below : Text}
    (hend : above.EndsLine) (hclosed : (scan keywords above).fault? = none)
    (hmark : below.head? ≠ some '\uFEFF') :
    scan keywords (above ++ below) =
      ((scan keywords below).mapLines (· + above.count '\n')).prepend
        (scan keywords above).tokens := by
  rw [scan_eq_scanLines, Scanner.fault?_scanLines, Option.map_eq_none_iff] at hclosed
  rw [scan_eq_scanLines, Text.lines_append hend fun _ => hmark,
    Scanner.scanLines_append, hclosed, Nat.zero_add,
    Scanner.scanLines_shift keywords above.lines.length, hend.length_lines,
    ← Text.lines_of_head? hmark]
  rfl

/-! ## Scanners that are kept -/

namespace Scanner

/-- The scanner behind its next `count` answers. -/
def after (scanner : Scanner) : (count : Nat) → Scanner
  | 0 => scanner
  | count + 1 => scanner.next?.2.after count

/-- What a scanner has read and what it has not, behind one answer. -/
theorem next?_snd (scanner : Scanner) :
    scanner.next?.2.keywords = scanner.keywords ∧
      scanner.next?.2.rest = scanner.rest.tail ∧
      scanner.next?.2.linesRead = scanner.linesRead + min 1 scanner.rest.length := by
  rcases hrest : scanner.rest with _ | ⟨line, rest⟩
  · simp [next?, hrest]
  · simp [next?, hrest]

theorem keywords_after (scanner : Scanner) (count : Nat) :
    (scanner.after count).keywords = scanner.keywords := by
  induction count generalizing scanner with
  | zero => rfl
  | succ count ih => rw [after, ih, scanner.next?_snd.1]

theorem rest_after (scanner : Scanner) (count : Nat) :
    (scanner.after count).rest = scanner.rest.drop count := by
  induction count generalizing scanner with
  | zero => rfl
  | succ count ih => rw [after, ih, scanner.next?_snd.2.1, List.drop_tail]

/-- The number of lines read goes up with every answer that is a token. -/
theorem linesRead_after (scanner : Scanner) (count : Nat) :
    (scanner.after count).linesRead =
      scanner.linesRead + min count scanner.rest.length := by
  induction count generalizing scanner with
  | zero => rw [Nat.zero_min]; rfl
  | succ count ih =>
      obtain ⟨-, hrest, hread⟩ := scanner.next?_snd
      rw [after, ih, hread, hrest, List.length_tail]
      omega

/-- Behind the first lines the rest of the document is ahead. -/
theorem rest_after_ofText (keywords : KeywordTable) (document : Text) (count : Nat) :
    ((ofText keywords document).after count).rest =
      (document.dropByteOrderMark.dropLines count).splitLines.map Text.dropReturn := by
  rw [rest_after, Text.splitLines_dropLines, List.map_drop]
  rfl

end Scanner

/-- A document whose first part ends outside doc strings is answered part by part, and a
scanner kept outside doc strings answers like a fresh one in front of the text that is
left, with the lines read so far added to all numbers. -/
theorem scanning_is_compositional (keywords : KeywordTable) :
    (∀ above below : Text, above.EndsLine → (scan keywords above).fault? = none →
      below.head? ≠ some '\uFEFF' →
      (scan keywords (above ++ below)).answers =
        (scan keywords above).answers ++
          (scan keywords below).answers.map (renumberAnswer (· + above.count '\n'))) ∧
    ∀ (document : Text) (count : Nat),
      let kept := (Scanner.ofText keywords document).after count
      let fresh :=
        Scanner.ofText keywords (document.dropByteOrderMark.dropLines count)
      kept.opened? = none →
      (document.dropByteOrderMark.dropLines count).head? ≠ some '\uFEFF' →
      ∀ index,
        kept.answer? index =
            (fresh.answer? index).map (renumberAnswer (· + kept.linesRead)) ∧
          (kept.after index).linesRead =
            (fresh.after index).linesRead + kept.linesRead := by
  constructor
  · intro above below hend hclosed hmark
    rw [scan_append hend hclosed hmark, Scan.answers_prepend, Scan.answers_mapLines,
      Scan.answers_of_fault?_eq_none hclosed]
  · intro document count kept fresh hopened hmark index
    have hrest : kept.rest = fresh.rest := by
      rw [Scanner.rest_after_ofText, ← Text.lines_of_head? hmark]
      rfl
    have hremaining : kept.remaining =
        fresh.remaining.mapLines (· + kept.linesRead) := by
      rw [Scanner.remaining, Scanner.keywords_after, hopened, hrest,
        Scanner.scanLines_shift]
      rfl
    constructor
    · rw [Scanner.answer?_eq_getElem?_answers, Scanner.answer?_eq_getElem?_answers,
        hremaining, Scan.answers_mapLines, List.getElem?_map]
    · have hread : fresh.linesRead = 0 := rfl
      rw [kept.linesRead_after, fresh.linesRead_after, hrest, hread, Nat.zero_add,
        Nat.add_comm]

/-- A comment and a doc string. -/
def closedPart : Text :=
  "# a\n\"\"\"\nFeature: F\n\"\"\"\n".toList

/-- A line of text and a doc string that is never closed. -/
def openPart : Text :=
  "b\n\x60\x60\x60".toList

theorem scanning_is_compositional_closedPart :
    closedPart.EndsLine ∧ (scan .english closedPart).fault? = none ∧
      openPart.head? ≠ some '\uFEFF' ∧
      (scan .english openPart).answers =
        [.ok ⟨1, .text "b".toList⟩, .ok ⟨2, .fence ⟨.backticks, 0, none⟩⟩,
          .error ⟨2, .unterminatedDocString 2⟩] ∧
      (scan .english (closedPart ++ openPart)).answers =
        (scan .english closedPart).answers ++
          [.ok ⟨5, .text "b".toList⟩, .ok ⟨6, .fence ⟨.backticks, 0, none⟩⟩,
            .error ⟨6, .unterminatedDocString 6⟩] ∧
      ((Scanner.ofText .english (closedPart ++ openPart)).after 4).opened? = none ∧
      Text.dropLines 4 (closedPart ++ openPart).dropByteOrderMark = openPart ∧
      ((Scanner.ofText .english (closedPart ++ openPart)).after 4).answer? 2 =
        some (.error ⟨6, .unterminatedDocString 6⟩) := by
  obtain ⟨hparts, hkept⟩ := scanning_is_compositional .english
  have hend : closedPart.EndsLine := fun _ hc => (Option.some.inj hc).symm
  have hclosed : (scan .english closedPart).fault? = none := rfl
  have hmark : openPart.head? ≠ some '\uFEFF' := by decide
  have hanswers : (scan .english openPart).answers =
      [.ok ⟨1, .text "b".toList⟩, .ok ⟨2, .fence ⟨.backticks, 0, none⟩⟩,
        .error ⟨2, .unterminatedDocString 2⟩] := rfl
  have hwhole := hparts closedPart openPart hend hclosed hmark
  rw [hanswers] at hwhole
  have hopened :
      ((Scanner.ofText .english (closedPart ++ openPart)).after 4).opened? = none := rfl
  have hanswer := (hkept (closedPart ++ openPart) 4 hopened hmark 2).1
  exact ⟨hend, hclosed, hmark, hanswers, hwhole, hopened, rfl, hanswer⟩

end Gherkin
