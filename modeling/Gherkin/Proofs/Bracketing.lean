import Gherkin.Proofs.Resumption
import Gherkin.Proofs.Text.Lines

/-!
# Every line is answered once

A scanner is asked for one answer after the other.  It answers every line of its
document with one token, numbered as the lines are, and behind the last line it reports
the doc string that is open there, if one is, and then nothing more.  A line below an
open fence is content as it stands, unless it is that fence alone, and then it closes
the doc string.  So the lines of a document are bracketed: lines outside doc strings and
whole doc strings, and behind them at most one that is never closed.
-/

namespace Gherkin

/-! ## Answers -/

/-- The answers that a scan amounts to. -/
def Scan.answers (scanned : Scan) : List (Except Diagnostic Token) :=
  scanned.tokens.map .ok ++ (scanned.fault?.map .error).toList

namespace Scanner

/-- The answer to the question behind the first `count` ones. -/
def answer? (scanner : Scanner) : (count : Nat) → Option (Except Diagnostic Token)
  | 0 => scanner.next?.1
  | count + 1 => scanner.next?.2.answer? count

/-- Behind its last answer a scanner has none. -/
theorem answer?_of_rest_nil {scanner : Scanner} (hrest : scanner.rest = [])
    (hopened : scanner.opened? = none) (count : Nat) :
      scanner.answer? count = none := by
  induction count generalizing scanner with
  | zero => simp only [answer?, next?, hrest, hopened, Option.map_none]
  | succ count ih =>
      apply ih
      · simp only [next?, hrest]
      · simp only [next?, hrest]

/-- Asked again and again, a scanner gives the tokens ahead of it, then what is wrong
with the end, and then nothing. -/
theorem answer?_eq_getElem?_answers (scanner : Scanner) (count : Nat) :
    scanner.answer? count = scanner.remaining.answers[count]? := by
  rcases scanner with ⟨keywords, rest, read, opened?⟩
  induction rest generalizing read opened? count with
  | nil =>
      cases count with
      | zero => cases opened? <;> rfl
      | succ count =>
          have hbehind : (Scanner.mk keywords [] read none).answer? count = none :=
            answer?_of_rest_nil rfl rfl count
          cases opened? <;> exact hbehind
  | cons line rest ih =>
      cases count with
      | zero => rfl
      | succ count => exact ih count _ _

end Scanner

/-! ## Bracketed lines -/

/-- A line and the kind that it was read as. -/
structure Reading where
  line : Text
  kind : LineKind
deriving DecidableEq, Repr

/-- The fence is opened, and below it stands content: lines that are not the fence
alone, kept as they stand. -/
def Fence.StaysOpen (fence : Fence) (readings : List Reading) : Prop :=
  ∃ line opening, ∃ contents : List Text,
    readings = ⟨line, .fence opening⟩ ::
        contents.map (fun content => ⟨content, .content content⟩) ∧
      opening.fence = fence ∧ ∀ content ∈ contents, content.trim ≠ fence.text

/-- Lines outside doc strings, and doc strings with their closing fences, which stand
alone on their lines. -/
inductive Bracketed : List Reading → Prop
  | nil : Bracketed []
  | outside {reading : Reading} {rest : List Reading}
      (hfence : ∀ opening, reading.kind ≠ .fence opening)
      (hcontent : ∀ text, reading.kind ≠ .content text) (hrest : Bracketed rest) :
      Bracketed (reading :: rest)
  | docString {fence : Fence} {front rest : List Reading} {line : Text}
      {closing : FenceLine} (hfront : fence.StaysOpen front)
      (hline : line.trim = fence.text) (hfence : closing.fence = fence)
      (hcontentType : closing.contentType? = none) (hrest : Bracketed rest) :
      Bracketed (front ++ ⟨line, .fence closing⟩ :: rest)

theorem Bracketed.append {front back : List Reading} (hfront : Bracketed front)
    (hback : Bracketed back) : Bracketed (front ++ back) := by
  induction hfront with
  | nil => exact hback
  | outside hfence hcontent _ ih => exact .outside hfence hcontent ih
  | docString hopen hline hfence hcontentType _ ih =>
      rw [List.append_assoc]
      exact .docString hopen hline hfence hcontentType ih

namespace Fence.StaysOpen

variable {fence : Fence} {readings : List Reading} {line : Text}

theorem opening {opening : FenceLine} (hfence : opening.fence = fence) :
    fence.StaysOpen [⟨line, .fence opening⟩] :=
  ⟨line, opening, [], rfl, hfence, nofun⟩

theorem push (hopen : fence.StaysOpen readings) (hline : line.trim ≠ fence.text) :
    fence.StaysOpen (readings ++ [⟨line, .content line⟩]) := by
  obtain ⟨first, opening, contents, rfl, hfence, hcontents⟩ := hopen
  refine ⟨first, opening, contents ++ [line], by simp, hfence, ?_⟩
  intro content hcontent
  rcases List.mem_append.mp hcontent with hcontent | hcontent
  · exact hcontents content hcontent
  · rw [List.mem_singleton.mp hcontent]
    exact hline

end Fence.StaysOpen

/-! ## The fence that lines leave open -/

/-- The fence that is open behind a line of the given kind. -/
def OpenFence.behind (number : Nat) (opened? : Option OpenFence) (kind : LineKind) :
    Option OpenFence :=
  match kind, opened? with
  | .fence opening, none => some ⟨opening.fence, number⟩
  | .fence _, some _ => none
  | _, _ => opened?

/-- The fence that is open behind readings, `read` lines below the start. -/
def OpenFence.behindAll :
    (read : Nat) → (opened? : Option OpenFence) → List Reading → Option OpenFence
  | _, opened?, [] => opened?
  | read, opened?, reading :: rest =>
      behindAll (read + 1) (behind (read + 1) opened? reading.kind) rest

namespace OpenFence

theorem behindAll_append (read : Nat) (opened? : Option OpenFence)
    (front back : List Reading) :
    behindAll read opened? (front ++ back) =
      behindAll (read + front.length) (behindAll read opened? front) back := by
  induction front generalizing read opened? with
  | nil => rfl
  | cons reading front ih =>
      rw [List.cons_append, behindAll, ih, behindAll, List.length_cons,
        Nat.add_right_comm, Nat.add_assoc]

theorem behindAll_contents (read : Nat) (opened : OpenFence) (contents : List Text) :
    behindAll read (some opened)
      (contents.map fun content => ⟨content, .content content⟩) = some opened := by
  induction contents generalizing read with
  | nil => rfl
  | cons content contents ih => exact ih (read + 1)

/-- The first of the lines below an open fence has opened it. -/
theorem behindAll_of_staysOpen {fence : Fence} {readings : List Reading}
    (hopen : fence.StaysOpen readings) (read : Nat) :
    behindAll read none readings = some ⟨fence, read + 1⟩ := by
  obtain ⟨line, opening, contents, rfl, rfl, -⟩ := hopen
  exact behindAll_contents _ _ contents

/-- Behind bracketed lines no fence is open. -/
theorem behindAll_of_bracketed {readings : List Reading}
    (hreadings : Bracketed readings)
    (read : Nat) : behindAll read none readings = none := by
  induction hreadings generalizing read with
  | nil => rfl
  | @outside reading rest hfence hcontent _ ih =>
      have hbehind : behind (read + 1) none reading.kind = none := by
        cases hkind : reading.kind with
        | fence opening => exact absurd hkind (hfence opening)
        | _ => rfl
      rw [behindAll, hbehind]
      exact ih (read + 1)
  | docString hopen _ _ _ _ ih =>
      rw [behindAll_append, behindAll_of_staysOpen hopen]
      exact ih _

end OpenFence

/-- In the lines read so far every doc string is closed, up to one of the open fence. -/
inductive Bracketing : List Reading → Option OpenFence → Prop
  | closed {readings : List Reading} (hreadings : Bracketed readings) :
      Bracketing readings none
  | opened {front back : List Reading} {fence : Fence} (hfront : Bracketed front)
      (hback : fence.StaysOpen back) :
      Bracketing (front ++ back) (some ⟨fence, front.length + 1⟩)

/-- The lines themselves tell which fence is open behind them. -/
theorem Bracketing.behindAll_eq {readings : List Reading} {opened? : Option OpenFence}
    (hreadings : Bracketing readings opened?) :
    OpenFence.behindAll 0 none readings = opened? := by
  cases hreadings with
  | closed hreadings => exact OpenFence.behindAll_of_bracketed hreadings 0
  | opened hfront hback =>
      rw [OpenFence.behindAll_append, OpenFence.behindAll_of_bracketed hfront,
        OpenFence.behindAll_of_staysOpen hback, Nat.zero_add]

/-! ## What one line does -/

/-- Below an open fence a line that is the fence alone closes it, and every other line
is content. -/
theorem OpenFence.readLine_some (keywords : KeywordTable) (number : Nat)
    (opened : OpenFence) (line : Text) :
    readLine keywords number (some opened) line =
      if line.trim = opened.fence.text then
        (.fence ⟨opened.fence, line.indentation, none⟩, none)
      else (.content line, some opened) := by
  by_cases hline : line.trim = opened.fence.text
  · simp only [readLine, LineKind.ofContentLine, FenceLine.closing?, if_pos hline]
  · simp only [readLine, LineKind.ofContentLine, FenceLine.closing?, if_neg hline]

/-- One more line keeps the lines bracketed. -/
theorem Bracketing.concat {readings : List Reading} {opened? : Option OpenFence}
    (hreadings : Bracketing readings opened?) (keywords : KeywordTable) (line : Text) :
    Bracketing
      (readings ++
        [⟨line, (OpenFence.readLine keywords (readings.length + 1) opened? line).1⟩])
      (OpenFence.readLine keywords (readings.length + 1) opened? line).2 := by
  cases hreadings with
  | @opened front back fence hfront hback =>
      rw [OpenFence.readLine_some]
      by_cases hline : line.trim = fence.text
      · rw [if_pos hline, List.append_assoc]
        have hclosed : Bracketed
            (back ++ [⟨line, .fence ⟨fence, line.indentation, none⟩⟩]) :=
          .docString hback hline rfl rfl .nil
        exact .closed (hfront.append hclosed)
      · rw [if_neg hline, List.append_assoc]
        exact .opened hfront (hback.push hline)
  | closed hreadings =>
      have hreads :=
        OpenFence.reads_readLine keywords (readings.length + 1) none line
      generalize OpenFence.readLine keywords (readings.length + 1) none line = read
        at hreads
      rcases read with ⟨kind, after?⟩
      cases hreads with
      | opening => exact .opened hreadings (.opening rfl)
      | outside hfence hcontent =>
          exact .closed (hreadings.append (.outside hfence hcontent .nil))

/-! ## Whole documents -/

/-- The lines of a document with the kinds that they are read as. -/
def readings (keywords : KeywordTable) (document : Text) : List Reading :=
  List.zipWith Reading.mk document.lines
    ((scan keywords document).tokens.map Token.kind)

/-- The lines that a scanner has read are bracketed up to the fence that is open. -/
theorem bracketing_scanLines (keywords : KeywordTable) (lines : List Text) :
    Bracketing
      (List.zipWith Reading.mk lines
        ((Scanner.scanLines keywords 0 none lines).tokens.map Token.kind))
      (Scanner.openedBehind keywords 0 none lines) := by
  -- What is open depends on the lines above, so the induction adds lines at the end.
  induction lines using List.reverseRecOn with
  | nil => exact .closed .nil
  | append_singleton lines line ih =>
      have hlength : lines.length =
          ((Scanner.scanLines keywords 0 none lines).tokens.map Token.kind).length := by
        rw [List.length_map, Scanner.length_tokens_scanLines]
      have hnext := ih.concat keywords line
      rw [List.length_zipWith, ← hlength, Nat.min_self] at hnext
      rw [Scanner.openedBehind_append, Scanner.scanLines_append, Nat.zero_add,
        Scan.prepend, List.map_append, List.zipWith_append hlength]
      exact hnext

theorem bracketing_readings (keywords : KeywordTable) (document : Text) :
    Bracketing (readings keywords document)
      (Scanner.openedBehind keywords 0 none document.lines) :=
  bracketing_scanLines keywords document.lines

/-- A scanner answers every line of a document with a token of its number, and the lines
are bracketed unless a doc string is open at the end.  That doc string is reported
behind the last line, at the line of its fence, and nothing comes after it. -/
theorem scanner_answers_lines (keywords : KeywordTable) (document : Text) :
    (∀ count, (Scanner.ofText keywords document).answer? count =
        (scan keywords document).answers[count]?) ∧
      (scan keywords document).tokens.map Token.line =
        List.range' 1 document.dropByteOrderMark.lineCount ∧
      document.lines.length = document.dropByteOrderMark.lineCount ∧
      ((scan keywords document).fault? = none ↔
        Bracketed (readings keywords document)) ∧
      ∀ diagnostic, (scan keywords document).fault? = some diagnostic ↔
        ∃ front back, ∃ fence : Fence,
          readings keywords document = front ++ back ∧ Bracketed front ∧
            fence.StaysOpen back ∧
            diagnostic =
              ⟨front.length + 1, .unterminatedDocString (front.length + 1)⟩ := by
  have hcount : document.lines.length = document.dropByteOrderMark.lineCount := by
    rw [Text.lines, List.length_map, Text.length_splitLines]
  have hnumbers : (scan keywords document).tokens.map Token.line =
      List.range' 1 document.dropByteOrderMark.lineCount := by
    rw [scan_eq_scanLines, Scanner.map_line_scanLines, hcount]
  have hfault : (scan keywords document).fault? =
      (Scanner.openedBehind keywords 0 none document.lines).map OpenFence.diagnostic :=
    Scanner.fault?_scanLines keywords 0 none document.lines
  have hbrackets := bracketing_readings keywords document
  have hbehind := hbrackets.behindAll_eq
  refine ⟨(Scanner.ofText keywords document).answer?_eq_getElem?_answers,
    hnumbers, hcount, ?_, fun diagnostic => ?_⟩
  · rw [hfault, Option.map_eq_none_iff]
    constructor
    · intro hopened
      rw [hopened] at hbrackets
      generalize readings keywords document = lines at hbrackets ⊢
      cases hbrackets with
      | closed hreadings => exact hreadings
    · intro hreadings
      rw [← hbehind]
      exact OpenFence.behindAll_of_bracketed hreadings 0
  · rw [hfault, Option.map_eq_some_iff]
    constructor
    · rintro ⟨opened, hopened, rfl⟩
      rw [hopened] at hbrackets
      generalize readings keywords document = lines at hbrackets
      cases hbrackets with
      | opened hfront hback => exact ⟨_, _, _, rfl, hfront, hback, rfl⟩
    · rintro ⟨front, back, fence, hreadings, hfront, hback, rfl⟩
      -- The brackets of the lines themselves tell which fence is open behind them.
      have hopened := (Bracketing.opened hfront hback).behindAll_eq
      rw [← hreadings, hbehind] at hopened
      exact ⟨_, hopened, rfl⟩

end Gherkin
