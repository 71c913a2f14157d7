import Gherkin.Parse
import Gherkin.Text.Printable

/-!
# The journal of a read

A read leaves a journal behind.  It starts with the size of the document, names
every container and step as it is opened, and ends with what was discarded and
what was read, or with the token that was rejected.  Events are values; their
wording and how loud they are is a matter of writing them down.
-/

namespace Gherkin

/-- How loud an event is. -/
inductive Level where
  | trace
  | debug
  | warn
deriving DecidableEq, Repr

def Level.name : Level → String
  | trace => "TRACE"
  | debug => "DEBUG"
  | warn => "WARN"

/-- Something that happens during a read. -/
inductive Event where
  /-- The read of a document of so many bytes begins. -/
  | began (bytes : Nat)
  /-- A container is opened. -/
  | openedContainer (line : Nat) (keyword text : Text)
  /-- A step is opened. -/
  | openedStep (line : Nat) (keyword text : Text)
  /-- A token is rejected. -/
  | rejected (diagnostic : Diagnostic)
  /-- Tags at the end of the document are lost. -/
  | discardedTags (tags : List Text)
  /-- Comments at the end of the document are dropped. -/
  | discardedComments (count : Nat)
  /-- The document is read. -/
  | finished (name : Text) (scenarios : Nat)
deriving DecidableEq, Repr

namespace Event

def level : Event → Level
  | openedContainer _ _ _ | openedStep _ _ _ => .trace
  | discardedTags _ => .warn
  | _ => .debug

/-- A character inside quotation marks.  What would end them or start an escape is
escaped, and what is not printable is written as its code point. -/
def escape (c : Char) : Text :=
  match c with
  | '"' => ['\\', '"']
  | '\\' => ['\\', '\\']
  | '\x00' => ['\\', '0']
  | '\t' => ['\\', 't']
  | '\n' => ['\\', 'n']
  | '\r' => ['\\', 'r']
  | _ =>
      if isPrintable c then [c]
      else ['\\', 'u', '{'] ++ Nat.toDigits 16 c.toNat ++ ['}']

/-- A tag in quotation marks. -/
def quote (tag : Text) : String :=
  "\"" ++ String.ofList (tag.flatMap escape) ++ "\""

/-- Tags in quotation marks, as a list in brackets. -/
def quoteAll (tags : List Text) : String :=
  "[" ++ ", ".intercalate (tags.map quote) ++ "]"

/-- The wording of the event in the journal of the document at `uri`. -/
def message (uri : Text) (event : Event) : String :=
  let address := String.ofList uri
  match event with
  | began bytes => address ++ ": parsing " ++ toString bytes ++ " bytes"
  | openedContainer line keyword text =>
      address ++ ":" ++ toString line ++ ": opening " ++ String.ofList keyword
        ++ " `" ++ String.ofList text ++ "`"
  | openedStep line keyword text =>
      address ++ ":" ++ toString line ++ ": step `" ++ String.ofList keyword ++ " "
        ++ String.ofList text ++ "`"
  | rejected diagnostic => diagnostic.located uri
  | discardedTags tags =>
      address ++ ": discarding tags " ++ quoteAll tags
        ++ " that precede the end of the document"
  | discardedComments count =>
      address ++ ": discarding " ++ toString count ++ " trailing comments"
  | finished name scenarios =>
      address ++ ": parsed feature `" ++ String.ofList name ++ "` with "
        ++ toString scenarios ++ " scenarios"

end Event

/-- The event of a token that is accepted.  Only containers and steps have one. -/
def Token.event? (token : Token) : Option Event :=
  match token.kind with
  | .keyword opening =>
      match opening.role with
      | .background | .scenario | .outline =>
          some (.openedContainer token.line opening.keyword opening.text)
      | .step _ => some (.openedStep token.line opening.keyword opening.text)
      | .feature | .examples => none
  | _ => none

namespace Assembly

/-- The events of finishing the document. -/
def finishEvents (assembly : Assembly) : List Event :=
  match assembly.finish with
  | .error _ => []
  | .ok feature =>
      let tags := assembly.pending.tags
      let comments := assembly.pending.comments
      (if tags.isEmpty then [] else [.discardedTags tags])
        ++ (if assembly.policy = .attach || comments.isEmpty then []
          else [.discardedComments comments.length])
        ++ [.finished feature.name feature.scenarios.length]

/-- The events of feeding tokens up to the first that is rejected, and then
`ending` if none is. -/
def feedEvents (ending : Assembly → List Event) : Assembly → List Token → List Event
  | assembly, [] => ending assembly
  | assembly, token :: tokens =>
      match assembly.feed token with
      | .accepted next => token.event?.toList ++ feedEvents ending next tokens
      | .rejected _ diagnostic => [.rejected diagnostic]

end Assembly

/-- The journal of reading a document.  A doc string that is open at the end of
the document is the reader's answer and leaves no event. -/
def journal (config : Config) (uri document : Text) : List Event :=
  let scanned := scan config.keywords document
  let ending (assembly : Assembly) :=
    if scanned.fault?.isSome then [] else assembly.finishEvents
  .began document.utf8Length ::
    Assembly.feedEvents ending (Assembly.start uri config.trailingComments)
      scanned.tokens

end Gherkin
