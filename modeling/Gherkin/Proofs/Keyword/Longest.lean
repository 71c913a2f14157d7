import Gherkin.Proofs.Keyword.Precedence
import Mathlib.Data.List.Infix

/-!
# The longest literal that applies

Whether a literal applies to a line can be said without a table: the line consists of
the literal, of what has to follow it, and of a remainder.  A table reads the longest of
its literals that apply.  A longer one that stands in front of the line too, but has the
wrong thing behind it, does not get in the way.

The keyword can be cut out of the line at an offset that is counted in bytes, back from
the end of the line.  The offset is never inside a character, because both parts of the
line consist of whole characters.
-/

namespace Gherkin

/-! ## Offsets in bytes -/

namespace Text

variable {text front : Text} {offset : Nat}

theorem utf8Length_lt_of_isPrefix (hstarts : front <+: text) (hne : front ≠ text) :
    front.utf8Length < text.utf8Length := by
  obtain ⟨extra, rfl⟩ := hstarts
  have hextra : utf8Length extra ≠ 0 := by
    intro hzero
    apply hne
    rw [utf8Length_eq_zero_iff.mp hzero, List.append_nil]
  rw [utf8Length_append]
  omega

/-- The text in front of an offset in bytes.  There is none if the offset is behind the
end of the text or inside a character. -/
def takeBytes? (text : Text) (offset : Nat) : Option Text :=
  text.inits.find? fun front => front.utf8Length == offset

/-- What is in front of an offset is as many bytes long as the offset says. -/
theorem takeBytes?_eq_some_iff :
    text.takeBytes? offset = some front ↔
      front <+: text ∧ front.utf8Length = offset := by
  have hcut {found : Text} {offset : Nat}
      (htake : text.takeBytes? offset = some found) :
      found <+: text ∧ found.utf8Length = offset := by
    rw [takeBytes?] at htake
    have hlength := List.find?_some htake
    exact ⟨(List.mem_inits found text).mp (List.mem_of_find?_eq_some htake),
      beq_iff_eq.mp hlength⟩
  constructor
  · exact hcut
  · rintro ⟨hstarts, rfl⟩
    have hsome : (text.takeBytes? front.utf8Length).isSome = true := by
      apply List.find?_isSome.mpr
      exact ⟨front, (List.mem_inits front text).mpr hstarts, beq_self_eq_true _⟩
    obtain ⟨found, hfound⟩ := Option.isSome_iff_exists.mp hsome
    obtain ⟨hfoundStarts, hlength⟩ := hcut hfound
    -- Prefixes of one text with equally many bytes are prefixes of each other.
    have hfront := isPrefix_of_utf8Length_le hstarts hfoundStarts hlength.ge
    have hback := isPrefix_of_utf8Length_le hfoundStarts hstarts hlength.le
    rw [hfound, hfront.eq_of_length_le hback.length_le]

/-- The length in bytes is that of the encoded string. -/
theorem utf8ByteSize_ofList (text : Text) :
    (String.ofList text).utf8ByteSize = text.utf8Length := by
  induction text with
  | nil => rfl
  | cons c text ih =>
      rw [String.ofList_cons, String.utf8ByteSize_append,
        String.utf8ByteSize_singleton, ih, utf8Length]

/-- A text can be cut at the boundaries of its characters and nowhere else. -/
theorem isSome_takeBytes?_iff :
    (text.takeBytes? offset).isSome = true ↔
      String.Pos.Raw.IsValid (String.ofList text) ⟨offset⟩ := by
  rw [Option.isSome_iff_exists, String.Pos.Raw.isValid_iff_exists_append]
  simp only [takeBytes?_eq_some_iff]
  constructor
  · rintro ⟨front, ⟨back, rfl⟩, rfl⟩
    refine ⟨String.ofList front, String.ofList back, String.ofList_append, ?_⟩
    exact String.Pos.Raw.ext (utf8ByteSize_ofList front).symm
  · rintro ⟨front, back, htext, hoffset⟩
    refine ⟨front.toList, ⟨back.toList, ?_⟩, ?_⟩
    · rw [← String.toList_append, ← htext, String.toList_ofList]
    · rw [← utf8ByteSize_ofList, String.ofList_toList]
      exact (congrArg String.Pos.Raw.byteIdx hoffset).symm

theorem dropPrefix?_eq_some_iff {rest : Text} :
    text.dropPrefix? front = some rest ↔ text = front ++ rest := by
  rw [List.dropPrefix?_eq_some_iff]
  constructor
  · rintro ⟨same, htext, hsame⟩
    rwa [← beq_iff_eq.mp hsame]
  · exact fun htext => ⟨front, htext, beq_self_eq_true front⟩

end Text

/-! ## Literals that apply -/

/-- A literal applies to a line.  Behind a structural keyword there is a colon, with
nothing but blanks between them, and behind the keyword of a step there is white space
or nothing.  `written` is the line up to the colon or the end of the keyword, and
`remainder` is what is behind that. -/
inductive Opens (line : Text) : Text × Role → Text → Text → Prop
  | structural {literal gap remainder : Text} {role : Role}
      (hrole : role.isStructural = true)
      (hgap : ∀ c ∈ gap, isBlank c = true)
      (hline : line = literal ++ (gap ++ ':' :: remainder)) :
      Opens line (literal, role) (literal ++ (gap ++ [':'])) remainder
  | step {literal remainder : Text} {role : Role}
      (hrole : role.isStructural = false)
      (hremainder : ∀ c ∈ remainder.head?, isWhite c = true)
      (hline : line = literal ++ remainder) :
      Opens line (literal, role) literal remainder

/-- The literal of the entry applies to the line. -/
def Applies (line : Text) (entry : Text × Role) : Prop :=
  ∃ written remainder, Opens line entry written remainder

namespace Opens

variable {line written remainder : Text} {entry : Text × Role}

/-- A structural literal applies if there is a colon behind the blanks behind it. -/
theorem of_dropBlanks (literal : Text) {rest : Text} {role : Role}
    (hrole : role.isStructural = true) (hrest : rest.dropBlanks = ':' :: remainder) :
    ∃ written, Opens (literal ++ rest) (literal, role) written remainder := by
  have hgap : ∀ c ∈ rest.takeWhile isBlank, isBlank c = true :=
    fun c hc => List.mem_takeWhile_imp hc
  refine ⟨_, .structural hrole hgap ?_⟩
  rw [← hrest, Text.dropBlanks, List.takeWhile_append_dropWhile]

/-- The literal of a step applies if there is white space or nothing behind it. -/
theorem of_head? (literal : Text) {rest : Text} {role : Role}
    (hrole : ¬ role.isStructural = true) (hrest : rest.head?.all isWhite = true) :
    Opens (literal ++ rest) (literal, role) literal rest := by
  rw [Option.all_eq_true] at hrest
  exact .step (Bool.eq_false_iff.mpr hrole) hrest rfl

theorem line_eq (hopens : Opens line entry written remainder) :
    line = written ++ remainder := by
  cases hopens with
  | structural _ _ hline => rw [hline]; simp
  | step _ _ hline => exact hline

theorem trimKeyword_written (hopens : Opens line entry written remainder) :
    written.trimKeyword = entry.1.trimKeyword := by
  cases hopens with
  | structural _ hgap _ =>
      apply Text.trimKeyword_append
      intro c hc
      rcases List.mem_append.mp hc with hc | hc
      · rw [hgap c hc, Bool.true_or]
      · rw [List.mem_singleton.mp hc]
        decide
  | step _ _ _ => rfl

/-- The offset at which the line is cut lies in the line and on the boundary of a
character. -/
theorem takeBytes?_eq (hopens : Opens line entry written remainder) :
    line.takeBytes? (line.utf8Length - remainder.utf8Length) = some written := by
  apply Text.takeBytes?_eq_some_iff.mpr
  rw [hopens.line_eq, Text.utf8Length_append, Nat.add_sub_cancel]
  exact ⟨List.prefix_append written remainder, rfl⟩

end Opens

namespace KeywordLine

variable {line literal : Text} {role : Role} {opening : KeywordLine}

/-- A line is read as opened by a literal if the literal applies to it. -/
theorem ofLiteral?_eq_some_iff :
    ofLiteral? line literal role = some opening ↔
      ∃ written remainder, Opens line (literal, role) written remainder ∧
        opening = ⟨role, literal.trimKeyword, remainder.trim⟩ := by
  constructor
  · intro hread
    obtain ⟨rest, rfl⟩ := isPrefix_of_ofLiteral? hread
    rw [ofLiteral?_append] at hread
    split at hread
    · next hrole =>
        split at hread
        · next remainder hrest =>
            obtain ⟨written, hopens⟩ := Opens.of_dropBlanks literal hrole hrest
            exact ⟨written, remainder, hopens, (Option.some.inj hread).symm⟩
        · cases hread
    · next hrole =>
        split at hread
        · next hrest =>
            exact ⟨literal, rest, Opens.of_head? literal hrole hrest,
              (Option.some.inj hread).symm⟩
        · cases hread
  · rintro ⟨written, remainder, hopens, rfl⟩
    cases hopens with
    | structural hrole hgap hline =>
        rw [hline, ofLiteral?_append, if_pos hrole, Text.dropBlanks,
          List.dropWhile_append_of_pos hgap]
        rfl
    | step hrole hremainder hline =>
        have hwhite : remainder.head?.all isWhite = true := by
          rwa [Option.all_eq_true]
        rw [hline, ofLiteral?_append, if_neg (by simp [hrole]), if_pos hwhite]

theorem isSome_ofLiteral?_iff :
    (ofLiteral? line literal role).isSome = true ↔ Applies line (literal, role) := by
  rw [Option.isSome_iff_exists, Applies]
  simp only [ofLiteral?_eq_some_iff]
  constructor
  · rintro ⟨opening, written, remainder, hopens, -⟩
    exact ⟨written, remainder, hopens⟩
  · rintro ⟨written, remainder, hopens⟩
    exact ⟨_, written, remainder, hopens, rfl⟩

/-- Reads a line as opened by a literal and cuts the keyword out of the line, at an
offset in bytes that is measured from the end of the line. -/
def ofSlices? (line literal : Text) (role : Role) : Option KeywordLine := do
  let rest : Text ← line.dropPrefix? literal
  if role.isStructural then
    let remainder : Text ← rest.dropBlanks.dropPrefix? [':']
    let written ← line.takeBytes? (line.utf8Length - remainder.utf8Length)
    return ⟨role, written.trimKeyword, remainder.trim⟩
  else if rest.head?.all isWhite then
    let written ← line.takeBytes? (line.utf8Length - rest.utf8Length)
    return ⟨role, written.trimKeyword, rest.trim⟩
  else
    none

/-- No slice fails: what is cut out of the line is what stands in front of the
remainder. -/
theorem ofSlices?_eq_some_iff :
    ofSlices? line literal role = some opening ↔
      ∃ written remainder, Opens line (literal, role) written remainder ∧
        opening = ⟨role, written.trimKeyword, remainder.trim⟩ := by
  simp only [ofSlices?, Option.bind_eq_bind, Option.bind_eq_some_iff,
    Text.dropPrefix?_eq_some_iff]
  constructor
  · rintro ⟨rest, rfl, hread⟩
    split at hread
    · next hrole =>
        simp only [Option.bind_eq_some_iff, Text.dropPrefix?_eq_some_iff] at hread
        obtain ⟨remainder, hrest, cut, hcut, hread⟩ := hread
        rw [List.singleton_append] at hrest
        obtain ⟨written, hopens⟩ := Opens.of_dropBlanks literal hrole hrest
        rw [hopens.takeBytes?_eq, Option.some.injEq] at hcut
        rw [← hcut] at hread
        exact ⟨written, remainder, hopens, (Option.some.inj hread).symm⟩
    · next hrole =>
        split at hread
        · next hrest =>
            have hopens := Opens.of_head? literal hrole hrest
            rw [hopens.takeBytes?_eq] at hread
            exact ⟨literal, rest, hopens, (Option.some.inj hread).symm⟩
        · cases hread
  · rintro ⟨written, remainder, hopens, rfl⟩
    have hcut := hopens.takeBytes?_eq
    cases hopens with
    | structural hrole hgap hline =>
        refine ⟨_, hline, ?_⟩
        rw [if_pos hrole]
        simp only [Option.bind_eq_some_iff, Text.dropPrefix?_eq_some_iff]
        exact ⟨remainder, List.dropWhile_append_of_pos hgap, _, hcut, rfl⟩
    | step hrole hremainder hline =>
        refine ⟨_, hline, ?_⟩
        have hwhite : remainder.head?.all isWhite = true := by
          rwa [Option.all_eq_true]
        rw [if_neg (by simp [hrole]), if_pos hwhite, Option.bind_eq_some_iff]
        exact ⟨_, hcut, rfl⟩

/-- What is cut out of the line is the literal, once it is trimmed. -/
theorem ofSlices?_eq (line literal : Text) (role : Role) :
    ofSlices? line literal role = ofLiteral? line literal role := by
  ext opening
  rw [ofSlices?_eq_some_iff, ofLiteral?_eq_some_iff]
  apply exists_congr
  intro written
  apply exists_congr
  intro remainder
  apply and_congr_right
  intro hopens
  rw [hopens.trimKeyword_written]

end KeywordLine

namespace KeywordTable

variable {table : KeywordTable} {line : Text} {opening : KeywordLine}

/-- The line is read by the longest literal of the table that applies to it: every other
one that does is shorter. -/
structure IsLongest (table : KeywordTable) (line : Text) (opening : KeywordLine) :
    Prop where
  mem : (opening.keyword, opening.role) ∈ table.entries
  shorter : ∀ other ∈ table.entries, Applies line other → other.1 ≠ opening.keyword →
    other.1.utf8Length < opening.keyword.utf8Length
  opens : ∃ written remainder,
    Opens line (opening.keyword, opening.role) written remainder ∧
      opening.text = remainder.trim

/-- Of the literals that apply the longest one is preferred. -/
theorem IsRegular.exists_prefers_iff (hregular : table.IsRegular) :
    (∃ entry, table.Prefers line opening entry) ↔ table.IsLongest line opening := by
  constructor
  · rintro ⟨⟨literal, role⟩, hmem, hopens, hstarts⟩
    obtain ⟨written, remainder, hwritten, rfl⟩ :=
      KeywordLine.ofLiteral?_eq_some_iff.mp hopens
    have htrim : literal.trimKeyword = literal :=
      hregular.trimKeyword_eq literal (List.mem_map_of_mem hmem)
    rw [htrim]
    refine ⟨hmem, fun other hother happlies hne => ?_,
      written, remainder, hwritten, rfl⟩
    apply Text.utf8Length_lt_of_isPrefix _ hne
    exact hstarts other hother (KeywordLine.isSome_ofLiteral?_iff.mpr happlies)
  · rintro ⟨hmem, hshorter, written, remainder, hopens, htext⟩
    have htrim := hregular.trimKeyword_eq opening.keyword (List.mem_map_of_mem hmem)
    have hread : KeywordLine.ofLiteral? line opening.keyword opening.role =
        some opening := by
      apply KeywordLine.ofLiteral?_eq_some_iff.mpr
      refine ⟨written, remainder, hopens, ?_⟩
      rw [htrim, ← htext]
    refine ⟨(opening.keyword, opening.role), hmem, hread, fun other hother hsome => ?_⟩
    by_cases hsame : other.1 = opening.keyword
    · rw [hsame]
    · obtain ⟨otherOpening, hother'⟩ := Option.isSome_iff_exists.mp hsome
      have hlength := hshorter other hother
        (KeywordLine.isSome_ofLiteral?_iff.mp hsome) hsame
      exact Text.isPrefix_of_utf8Length_le (KeywordLine.isPrefix_of_ofLiteral? hother')
        (KeywordLine.isPrefix_of_ofLiteral? hread) hlength.le

/-- A table reads the longest literal that applies to a line, and nothing in a line to
which none applies.  Every offset at which a keyword is cut out of the line lies in the
line and on the boundary of a character. -/
theorem reads_longest_literal (hbuilt : table.IsBuilt) (line : Text) :
    ((table.readLine? line).isSome = true ↔
      ∃ entry ∈ table.entries, Applies line entry) ∧
    (∀ opening, table.readLine? line = some opening ↔ table.IsLongest line opening) ∧
    (∀ opening, table.readLine? line = some opening →
      table.roleOf? opening.keyword = some opening.role) ∧
    (∀ entry ∈ table.entries, ∀ written remainder, Opens line entry written remainder →
      remainder.utf8Length ≤ line.utf8Length ∧
      String.Pos.Raw.IsValid (String.ofList line)
        ⟨line.utf8Length - remainder.utf8Length⟩ ∧
      line.takeBytes? (line.utf8Length - remainder.utf8Length) = some written) ∧
    table.readLine? line =
      table.entries.findSome? fun entry =>
        KeywordLine.ofSlices? line entry.1 entry.2 := by
  have hread (opening : KeywordLine) :
      table.readLine? line = some opening ↔ table.IsLongest line opening := by
    rw [readLine?_eq_some_iff hbuilt.isRegular hbuilt.isOrdered]
    exact hbuilt.isRegular.exists_prefers_iff
  refine ⟨?_, hread, fun opening hopening => ?_,
    fun entry _ written remainder hopens => ?_, ?_⟩
  · rw [readLine?, List.findSome?_isSome_iff]
    simp only [KeywordLine.isSome_ofLiteral?_iff]
  · exact hbuilt.isRegular.roleOf?_eq ((hread opening).mp hopening).mem
  · have hcut := hopens.takeBytes?_eq
    refine ⟨?_, Text.isSome_takeBytes?_iff.mp ?_, hcut⟩
    · rw [hopens.line_eq, Text.utf8Length_append]
      exact Nat.le_add_left _ _
    · rw [hcut]
      rfl
  · simp only [readLine?, KeywordLine.ofSlices?_eq]

end KeywordTable

/-- The English table with two literals that are not English, one in front of the other.
-/
def bilingualTable : KeywordTable :=
  (KeywordTable.english.register "Étant".toList (.step .given)).register
    "Étant donné".toList (.step .given)

/-- The longer literal is a prefix of the line, but a letter stands behind it. -/
theorem reads_longest_literal_bilingualTable :
    let line := "Étant donnée une page".toList
    let opening : KeywordLine :=
      ⟨.step .given, "Étant".toList, "donnée une page".toList⟩
    let remainder := " donnée une page".toList
    bilingualTable.IsBuilt ∧
      ("Étant donné".toList, .step .given) ∈ bilingualTable.entries ∧
      "Étant donné".toList <+: line ∧
      bilingualTable.readLine? line = some opening ∧
      bilingualTable.IsLongest line opening ∧
      Opens line ("Étant".toList, .step .given) "Étant".toList remainder ∧
      Text.takeBytes? line (Text.utf8Length line - Text.utf8Length remainder) =
        some "Étant".toList := by
  intro line opening remainder
  have hbuilt : bilingualTable.IsBuilt :=
    (KeywordTable.IsBuilt.english.register _ _).register _ _
  have hread : bilingualTable.readLine? line = some opening := by decide +kernel
  have hblank : ∀ c ∈ remainder.head?, isWhite c = true := by
    rintro _ ⟨⟩
    rfl
  have hopens : Opens line ("Étant".toList, .step .given) "Étant".toList remainder :=
    .step rfl hblank rfl
  obtain ⟨-, hlongest, -, hslices, -⟩ := KeywordTable.reads_longest_literal hbuilt line
  have hisLongest := (hlongest opening).mp hread
  obtain ⟨-, -, hcut⟩ := hslices _ hisLongest.mem _ _ hopens
  exact ⟨hbuilt, by decide +kernel, by decide +kernel, hread, hisLongest, hopens, hcut⟩

end Gherkin
