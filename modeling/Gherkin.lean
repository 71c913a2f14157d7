import Gherkin.Text.Blank
import Gherkin.Text.Lines
import Gherkin.Text.Replacement
import Gherkin.Keyword
import Gherkin.Keyword.Table
import Gherkin.Fence
import Gherkin.Row.Cells
import Gherkin.Diagnostic
import Gherkin.Config
import Gherkin.Token
import Gherkin.Token.Scanner
import Gherkin.Document
import Gherkin.Document.Listing
import Gherkin.Document.Record
import Gherkin.Document.Render
import Gherkin.Assembly
import Gherkin.Assembly.Feed
import Gherkin.Parse
import Gherkin.Journal
import Gherkin.Outline.Placeholder
import Gherkin.Outline.Expansion
import Gherkin.Proofs.Assembly.Move
import Gherkin.Proofs.Assembly.Refusal
import Gherkin.Proofs.Acceptance
import Gherkin.Proofs.Attachment
import Gherkin.Proofs.Cells
import Gherkin.Proofs.Cells.Separators
import Gherkin.Proofs.Consistency
import Gherkin.Proofs.Escaping
import Gherkin.Proofs.Expansion
import Gherkin.Proofs.Instantiation
import Gherkin.Proofs.KeywordLine
import Gherkin.Proofs.Lockstep
import Gherkin.Proofs.Origin
import Gherkin.Proofs.Passages
import Gherkin.Proofs.Placeholders
import Gherkin.Proofs.Rebuilding.Document
import Gherkin.Proofs.RoundTrip
import Gherkin.Proofs.Tables
import Gherkin.Proofs.Diagnosis
import Gherkin.Proofs.BlankLines
import Gherkin.Proofs.Keyword.Precedence
import Gherkin.Proofs.Keyword.Longest
import Gherkin.Proofs.Keyword.History
import Gherkin.Proofs.Bracketing
import Gherkin.Proofs.Provenance
import Gherkin.Proofs.LineEndings
import Gherkin.Proofs.Indentation
import Gherkin.Proofs.Rejection
import Gherkin.Proofs.Quotation
import Gherkin.Proofs.Substitution
import Gherkin.Proofs.Snapshots
import Gherkin.Proofs.Tables.Misfits
import Gherkin.Proofs.Tags
import Gherkin.Proofs.Journal
