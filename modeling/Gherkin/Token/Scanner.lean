import Gherkin.Diagnostic
import Gherkin.Token

/-!
# Scanning a document

A scanner stands between two lines of a document.  All it remembers of the lines
behind it is their number and the fence that is open, if one is: that fence
decides whether the next line is content.  A scanner is a value, so it can be
kept and scanned from again.  Behind the last line it reports a doc string that
is still open, once, and then nothing more.
-/

namespace Gherkin

/-- The fence that is open and the line that opened it. -/
structure OpenFence where
  fence : Fence
  line : Nat
deriving DecidableEq, Repr

namespace OpenFence

/-- What is wrong with a document that ends while the fence is open. -/
def diagnostic (opened : OpenFence) : Diagnostic :=
  ⟨opened.line, .unterminatedDocString opened.line⟩

/-- The kind of the line numbered `number` and the fence that is open behind it. -/
def readLine (keywords : KeywordTable) (number : Nat) (opened? : Option OpenFence)
    (line : Text) : LineKind × Option OpenFence :=
  match opened? with
  | some opened =>
      match LineKind.ofContentLine opened.fence line with
      | .fence fenceLine => (.fence fenceLine, none)
      | kind => (kind, some opened)
  | none =>
      match LineKind.ofLine keywords line with
      | .fence fenceLine => (.fence fenceLine, some ⟨fenceLine.fence, number⟩)
      | kind => (kind, none)

end OpenFence

/-- A position between two lines of a document. -/
structure Scanner where
  keywords : KeywordTable
  rest : List Text
  linesRead : Nat
  opened? : Option OpenFence
deriving DecidableEq, Repr

/-- The tokens of a document, and what is wrong with its end. -/
structure Scan where
  tokens : List Token
  fault? : Option Diagnostic
deriving DecidableEq, Repr

namespace Scanner

/-- The position in front of a document. -/
def ofText (keywords : KeywordTable) (document : Text) : Scanner :=
  ⟨keywords, document.lines, 0, none⟩

/-- Reads one line, or reports the doc string that is open behind the last. -/
def next? (scanner : Scanner) : Option (Except Diagnostic Token) × Scanner :=
  match scanner.rest with
  | [] =>
      (scanner.opened?.map fun opened => .error opened.diagnostic,
        { scanner with opened? := none })
  | line :: rest =>
      let number := scanner.linesRead + 1
      let (kind, opened?) :=
        OpenFence.readLine scanner.keywords number scanner.opened? line
      (some (.ok ⟨number, kind⟩),
        { scanner with rest := rest, linesRead := number, opened? := opened? })

/-- Reads the given lines, `read` of which are already behind. -/
def scanLines (keywords : KeywordTable) :
    (read : Nat) → (opened? : Option OpenFence) → List Text → Scan
  | _, opened?, [] => ⟨[], opened?.map OpenFence.diagnostic⟩
  | read, opened?, line :: rest =>
      let (kind, opened?) := OpenFence.readLine keywords (read + 1) opened? line
      let scan := scanLines keywords (read + 1) opened? rest
      ⟨⟨read + 1, kind⟩ :: scan.tokens, scan.fault?⟩

/-- Everything that is ahead of the scanner. -/
def remaining (scanner : Scanner) : Scan :=
  scanLines scanner.keywords scanner.linesRead scanner.opened? scanner.rest

/-- Behind the last line there is only the doc string that is still open. -/
theorem next?_of_rest_nil {scanner : Scanner} (hrest : scanner.rest = []) :
    scanner.next?.1 = scanner.remaining.fault?.map .error := by
  simp [next?, remaining, hrest, scanLines, Function.comp_def]

/-- The next token is the first one ahead, and the others stay ahead. -/
theorem remaining_of_next? {scanner after : Scanner} {token : Token}
    (hnext : scanner.next? = (some (.ok token), after)) :
    scanner.remaining =
      ⟨token :: after.remaining.tokens, after.remaining.fault?⟩ := by
  rcases hrest : scanner.rest with _ | ⟨line, rest⟩
  · simp [next?, hrest] at hnext
  · simp only [next?, hrest, Prod.mk.injEq, Option.some.injEq, Except.ok.injEq]
      at hnext
    obtain ⟨rfl, rfl⟩ := hnext
    simp [remaining, hrest, scanLines]

end Scanner

/-- The tokens of a document, and the doc string it ends in, if it does. -/
def scan (keywords : KeywordTable) (document : Text) : Scan :=
  (Scanner.ofText keywords document).remaining

end Gherkin
