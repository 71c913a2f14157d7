import Gherkin.Proofs.Token.Shape
import Gherkin.Token.Scanner

/-!
# Scanned tokens

A token of a scan is a line of the document, read either as a line of its own or as
a line below an open fence.  So what holds of everything that one line can be read
as holds of every token of every scan.
-/

namespace Gherkin

namespace OpenFence

/-- A line is read as a line of the document or as one of a doc string. -/
theorem readLine_fst (keywords : KeywordTable) (number : Nat)
    (opened? : Option OpenFence)
    (line : Text) :
    (readLine keywords number opened? line).1 =
      match opened? with
      | some opened => LineKind.ofContentLine opened.fence line
      | none => LineKind.ofLine keywords line := by
  unfold readLine
  cases opened? <;> dsimp only <;> split <;> simp_all

end OpenFence

/-- The scan with tokens in front of it. -/
def Scan.prepend (tokens : List Token) (scan : Scan) : Scan :=
  ⟨tokens ++ scan.tokens, scan.fault?⟩

theorem Scan.prepend_prepend (front back : List Token) (scan : Scan) :
    (scan.prepend back).prepend front = scan.prepend (front ++ back) := by
  rw [prepend, prepend, prepend, List.append_assoc]

/-- The first line gives the first token. -/
theorem Scanner.scanLines_cons {keywords : KeywordTable} {read : Nat}
    {opened? after? : Option OpenFence} {line : Text} {kind : LineKind}
    (hread : OpenFence.readLine keywords (read + 1) opened? line = (kind, after?))
    (rest : List Text) :
    scanLines keywords read opened? (line :: rest) =
      (scanLines keywords (read + 1) after? rest).prepend [⟨read + 1, kind⟩] := by
  rw [scanLines, hread]
  rfl

theorem scan_eq_scanLines (keywords : KeywordTable) (document : Text) :
    scan keywords document = Scanner.scanLines keywords 0 none document.lines := rfl

/-- Every token of a scan is the line with its number, read by itself. -/
theorem Scanner.exists_getElem?_of_mem {keywords : KeywordTable} {read : Nat}
    {opened? : Option OpenFence} {lines : List Text} {token : Token}
    (htoken : token ∈ (scanLines keywords read opened? lines).tokens) :
    ∃ index line, token.line = read + index + 1 ∧ lines[index]? = some line ∧
      (token.kind = LineKind.ofLine keywords line ∨
        ∃ fence, token.kind = LineKind.ofContentLine fence line) := by
  induction lines generalizing read opened? with
  | nil => cases htoken
  | cons line lines ih =>
      rcases List.mem_cons.mp htoken with rfl | htoken
      · refine ⟨0, line, rfl, rfl, ?_⟩
        have hkind := OpenFence.readLine_fst keywords (read + 1) opened? line
        cases opened? with
        | none => exact .inl hkind
        | some opened => exact .inr ⟨opened.fence, hkind⟩
      · obtain ⟨index, other, hline, hother, hkind⟩ := ih htoken
        exact ⟨index + 1, other, by omega, hother, hkind⟩

theorem Scanner.exists_line_of_mem {keywords : KeywordTable} {read : Nat}
    {opened? : Option OpenFence} {lines : List Text} {token : Token}
    (htoken : token ∈ (scanLines keywords read opened? lines).tokens) :
    ∃ line ∈ lines, token.kind = LineKind.ofLine keywords line ∨
      ∃ fence, token.kind = LineKind.ofContentLine fence line := by
  obtain ⟨index, line, -, hline, hkind⟩ := exists_getElem?_of_mem htoken
  exact ⟨line, List.mem_of_getElem? hline, hkind⟩

/-- The tokens of a scan are numbered one after the other. -/
theorem Scanner.map_line_scanLines (keywords : KeywordTable) (read : Nat)
    (opened? : Option OpenFence) (lines : List Text) :
    (scanLines keywords read opened? lines).tokens.map Token.line =
      List.range' (read + 1) lines.length := by
  induction lines generalizing read opened? with
  | nil => rfl
  | cons line lines ih =>
      rw [scanLines, List.map_cons, ih, List.length_cons, List.range'_succ]

/-- Every token of a document stands on a later line than the tokens before it. -/
theorem pairwise_line_scan (keywords : KeywordTable) (document : Text) :
    (scan keywords document).tokens.Pairwise fun above below =>
      above.line < below.line := by
  rw [← List.pairwise_map (f := Token.line) (R := (· < ·)), scan_eq_scanLines,
    Scanner.map_line_scanLines]
  exact List.pairwise_lt_range'

namespace LineKind

/-- Outside doc strings nothing is content. -/
theorem ofLine_ne_content {keywords : KeywordTable} {line : Text} (said : Text) :
    ofLine keywords line ≠ content said := by
  intro hkind
  simp only [ofLine] at hkind
  repeat' split at hkind
  all_goals cases hkind

/-- Inside a doc string content is the line as it stands. -/
theorem eq_of_ofContentLine_eq_content {fence : Fence} {line said : Text}
    (hkind : ofContentLine fence line = content said) : line = said := by
  unfold ofContentLine at hkind
  split at hkind
  · cases hkind
  · exact content.inj hkind

/-- Inside a doc string there are only fences and content. -/
theorem cases_of_ofContentLine {shape : Fence} {line : Text} {kind : LineKind}
    (hkind : kind = ofContentLine shape line) :
    (∃ closing, kind = fence closing) ∨ kind = content line := by
  unfold ofContentLine at hkind
  split at hkind
  · exact .inl ⟨_, hkind⟩
  · exact .inr hkind

/-- Text is never empty: an empty line is blank. -/
theorem ne_nil_of_ofLine_eq_text {keywords : KeywordTable} {line said : Text}
    (hkind : ofLine keywords line = text said) : said ≠ [] := by
  simp only [ofLine] at hkind
  split at hkind
  · cases hkind
  · split at hkind
    · cases hkind
    · cases hkind
    · cases hkind
    · split at hkind
      · cases hkind
      · split at hkind
        · cases hkind
        · next hempty =>
            rw [← text.inj hkind]
            exact fun hnil => hempty (List.isEmpty_iff.mpr hnil)

end LineKind

theorem ne_nil_of_text_mem_scan {keywords : KeywordTable} {document said : Text}
    {token : Token}
    (htoken : token ∈ (scan keywords document).tokens)
    (hkind : token.kind = .text said) :
    said ≠ [] := by
  obtain ⟨line, -, hline | ⟨fence, hline⟩⟩ := Scanner.exists_line_of_mem htoken
  · exact LineKind.ne_nil_of_ofLine_eq_text (hline ▸ hkind)
  · rw [hkind] at hline
    obtain ⟨_, hcases⟩ | hcases :=
      LineKind.cases_of_ofContentLine hline <;> cases hcases

end Gherkin
