/-!
# Blanks and white space

A feature document knows two kinds of empty space.  Indentation and the margins
of table cells are made of *blanks*, the space and the tab.  Everything else is
trimmed of *white space*, the characters that have the Unicode property
`White_Space`.  Every blank is white, so trimming white space also trims blanks,
but a no-break space at the edge of a cell is content.
-/

namespace Gherkin

/-- A run of characters: a document, a line, a name or a cell. -/
abbrev Text := List Char

/-- The space and the tab. -/
def isBlank (c : Char) : Bool :=
  c == ' ' || c == '\t'

/-- The code points with the property `White_Space`, as closed ranges in
increasing order. -/
def whiteSpaceRanges : List (Nat × Nat) :=
  [(0x09, 0x0D), (0x20, 0x20), (0x85, 0x85), (0xA0, 0xA0), (0x1680, 0x1680),
    (0x2000, 0x200A), (0x2028, 0x2029), (0x202F, 0x202F), (0x205F, 0x205F),
    (0x3000, 0x3000)]

/-- A character of one of the white space ranges. -/
def isWhite (c : Char) : Bool :=
  whiteSpaceRanges.any fun range => range.1 ≤ c.toNat && c.toNat ≤ range.2

theorem isWhite_of_isBlank {c : Char} (hblank : isBlank c = true) :
    isWhite c = true := by
  simp only [isBlank, Bool.or_eq_true, beq_iff_eq] at hblank
  rcases hblank with rfl | rfl <;> decide

namespace Text

/-- Drops the longest run at the end all of whose characters satisfy `p`. -/
def dropEndWhile (p : Char → Bool) (text : Text) : Text :=
  (text.reverse.dropWhile p).reverse

/-- Drops white space at the start. -/
def trimStart (text : Text) : Text :=
  text.dropWhile isWhite

/-- Drops white space at the end. -/
def trimEnd (text : Text) : Text :=
  text.dropEndWhile isWhite

/-- Drops white space at both ends. -/
def trim (text : Text) : Text :=
  text.trimStart.trimEnd

/-- Drops blanks at the start. -/
def dropBlanks (text : Text) : Text :=
  text.dropWhile isBlank

/-- Drops blanks at both ends. -/
def trimBlanks (text : Text) : Text :=
  text.dropBlanks.dropEndWhile isBlank

/-- The number of blanks a line starts with. -/
def indentation (line : Text) : Nat :=
  (line.takeWhile isBlank).length

/-- A keyword as it is looked up: without blanks in front and without blanks and
colons behind.  Blanks between its words stay. -/
def trimKeyword (written : Text) : Text :=
  written.dropBlanks.dropEndWhile fun c => isBlank c || c == ':'

/-- What a comment line says: without number signs and blanks in front and
without white space behind. -/
def trimComment (line : Text) : Text :=
  trimEnd (line.dropWhile fun c => isBlank c || c == '#')

/-- A tag without the at sign that introduces it.  Only one is removed. -/
def trimTag : Text → Text
  | '@' :: name => name
  | name => name

/-- The number of bytes that the text takes in UTF-8. -/
def utf8Length : Text → Nat
  | [] => 0
  | c :: text => c.utf8Size + utf8Length text

end Text

end Gherkin
