import Gherkin.Assembly.Feed
import Gherkin.Token.Scanner

/-!
# Reading a document

Reading a document scans it into tokens and feeds them to an assembly.  The first
token that is rejected ends the read.  A doc string that is still open at the end
of the document is reported by the scan before the assembly is asked to finish,
so the line named is that of the fence.
-/

namespace Gherkin

/-- The document, or the first thing that is wrong with it. -/
def parse (config : Config) (uri document : Text) : Except Diagnostic Feature :=
  let scanned := scan config.keywords document
  match (Assembly.start uri config.trailingComments).feedAll scanned.tokens with
  | .error diagnostic => .error diagnostic
  | .ok assembly =>
      match scanned.fault? with
      | some diagnostic => .error diagnostic
      | none => assembly.finish

/-- Reads a document with the English keywords and keeps trailing comments. -/
def parseFeature (uri document : Text) : Except Diagnostic Feature :=
  parse {} uri document

end Gherkin
