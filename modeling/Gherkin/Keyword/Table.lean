import Gherkin.Keyword

/-!
# Keyword tables

A keyword table says which literals open which constructs.  A line is read
against its entries in order and the first one that applies wins, so the order
carries meaning: longer literals stand in front of shorter ones, which is why
`Scenario Outline` is never read as `Scenario`.  Length is measured in UTF-8
bytes.  Among literals of one length the later registration stands behind, which
is harmless because two different literals of one length never start the same
line.
-/

namespace Gherkin

/-- A line that a keyword opens: what it opens, the keyword as written and the
text behind it. -/
structure KeywordLine where
  role : Role
  keyword : Text
  text : Text
deriving DecidableEq, Repr

/-- Reads a line as opened by `literal`.  A structural keyword is followed by a
colon, with nothing but blanks between them.  The keyword of a step is followed
by white space or by nothing. -/
def KeywordLine.ofLiteral? (line literal : Text) (role : Role) : Option KeywordLine :=
  if literal.isPrefixOf line then
    let rest : Text := line.drop literal.length
    if role.isStructural then
      match rest.dropBlanks with
      | ':' :: text =>
          let written := line.take (line.length - text.length)
          some ⟨role, Text.trimKeyword written, Text.trim text⟩
      | _ => none
    else if rest.head?.all isWhite then
      some ⟨role, Text.trimKeyword literal, rest.trim⟩
    else
      none
  else
    none

/-- Literals with what they open, in the order in which lines are read against
them. -/
structure KeywordTable where
  entries : List (Text × Role)
deriving DecidableEq, Repr

namespace KeywordTable

def empty : KeywordTable := ⟨[]⟩

/-- Puts an entry in front of the first one whose literal is shorter. -/
def insertEntry (added : Text × Role) : List (Text × Role) → List (Text × Role)
  | [] => [added]
  | entry :: entries =>
      if entry.1.utf8Length < added.1.utf8Length then
        added :: entry :: entries
      else
        entry :: insertEntry added entries

/-- Registers a literal, which loses any role it had.  A literal that is empty
once it is trimmed changes nothing. -/
def register (table : KeywordTable) (literal : Text) (role : Role) : KeywordTable :=
  let literal := literal.trimKeyword
  if literal.isEmpty then
    table
  else
    ⟨insertEntry (literal, role)
      (table.entries.filter fun entry => entry.1 != literal)⟩

def registerAll (table : KeywordTable) (entries : List (Text × Role)) : KeywordTable :=
  entries.foldl (fun table entry => table.register entry.1 entry.2) table

def ofList (entries : List (Text × Role)) : KeywordTable :=
  empty.registerAll entries

/-- The English literals, in the order of their registration. -/
def englishEntries : List (Text × Role) :=
  [("Feature".toList, .feature),
    ("Background".toList, .background),
    ("Scenario".toList, .scenario),
    ("Example".toList, .scenario),
    ("Scenario Outline".toList, .outline),
    ("Scenario Template".toList, .outline),
    ("Examples".toList, .examples),
    ("Scenarios".toList, .examples),
    ("Given".toList, .step .given),
    ("When".toList, .step .when),
    ("Then".toList, .step .«then»),
    ("And".toList, .step .and),
    ("But".toList, .step .but),
    ("*".toList, .step .and)]

/-- The English table, which is the default. -/
def english : KeywordTable := ofList englishEntries

/-- The literals, in the order in which lines are read against them. -/
def literals (table : KeywordTable) : List Text :=
  table.entries.map Prod.fst

def size (table : KeywordTable) : Nat :=
  table.entries.length

def isEmpty (table : KeywordTable) : Bool :=
  table.entries.isEmpty

/-- What a literal opens, once it is trimmed. -/
def roleOf? (table : KeywordTable) (literal : Text) : Option Role :=
  table.entries.lookup literal.trimKeyword

/-- Reads a line against the entries: the first one that applies wins. -/
def readLine? (table : KeywordTable) (line : Text) : Option KeywordLine :=
  table.entries.findSome? fun entry => KeywordLine.ofLiteral? line entry.1 entry.2

end KeywordTable

end Gherkin
