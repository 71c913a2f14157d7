import Gherkin.Keyword.Table
import Gherkin.Proofs.Text.Trimmed

/-!
# Keyword lines are read as they were written

A line that a keyword opens consists of a literal of the table and the text behind
it.  The English literals do not get into each other's way: written in front of a
colon or of white space, each of them is the one that is read.
-/

namespace Gherkin

/-- Blanks and colons behind a keyword do not change it. -/
theorem Text.trimKeyword_append {back : Text}
    (hback : ∀ c ∈ back, (isBlank c || c == ':') = true) (literal : Text) :
    Text.trimKeyword (literal ++ back) = literal.trimKeyword :=
  dropEndWhile_dropWhile_append hback literal

/-- What makes a literal safe to write: it has nothing that a reader drops. -/
structure Text.IsLiteral (literal : Text) : Prop where
  ne_nil : literal ≠ []
  trimmed : literal.IsTrimmed isWhite
  no_lineFeed : '\n' ∉ literal
  head?_ne : literal.head? ≠ some '\uFEFF'

namespace KeywordLine

/-- Behind its literal a line is opened by a colon if the keyword is structural, and
by white space otherwise. -/
theorem ofLiteral?_append (literal rest : Text) (role : Role) :
    ofLiteral? (literal ++ rest) literal role =
      if role.isStructural then
        match rest.dropBlanks with
        | ':' :: text => some ⟨role, literal.trimKeyword, Text.trim text⟩
        | _ => none
      else if rest.head?.all isWhite then
        some ⟨role, literal.trimKeyword, rest.trim⟩
      else
        none := by
  have hfront : literal.isPrefixOf (literal ++ rest) = true :=
    List.isPrefixOf_iff_prefix.mpr ⟨rest, rfl⟩
  rw [ofLiteral?, if_pos hfront, List.drop_left]
  dsimp only
  refine if_congr Iff.rfl ?_ rfl
  rcases hrest : rest.dropBlanks with _ | ⟨c, text⟩
  · rfl
  by_cases hc : c = ':'
  · subst hc
    have hgap : rest = rest.takeWhile isBlank ++ ':' :: text := by
      rw [← hrest, Text.dropBlanks, List.takeWhile_append_dropWhile]
    have hline : literal ++ rest =
        (literal ++ (rest.takeWhile isBlank ++ [':'])) ++ text := by
      rw [List.append_assoc, List.append_assoc, List.singleton_append, ← hgap]
    have hwritten : (literal ++ rest).take ((literal ++ rest).length - text.length) =
        literal ++ (rest.takeWhile isBlank ++ [':']) := by
      rw [hline, List.length_append, Nat.add_sub_cancel, List.take_left]
    have hcolon :
        ∀ d ∈ rest.takeWhile isBlank ++ [':'], (isBlank d || d == ':') = true := by
      intro d hd
      rcases List.mem_append.mp hd with hd | hd
      · rw [List.mem_takeWhile_imp hd, Bool.true_or]
      · rw [List.mem_singleton.mp hd]
        decide
    have htrim := Text.trimKeyword_append hcolon literal
    rw [← hwritten] at htrim
    exact congrArg (fun keyword => some (KeywordLine.mk role keyword (Text.trim text)))
      htrim
  · simp [hc]

/-- A literal that opens a line stands in front of it. -/
theorem isPrefix_of_ofLiteral? {line literal : Text} {role : Role}
    {opening : KeywordLine}
    (hopening : ofLiteral? line literal role = some opening) : literal <+: line := by
  rw [ofLiteral?] at hopening
  split at hopening
  · next hfront => exact List.isPrefixOf_iff_prefix.mp hfront
  · cases hopening

/-- What can open a line: a literal in front of it, and behind the literal a colon if
the keyword is structural, and white space otherwise. -/
theorem eq_of_ofLiteral? {line literal : Text} {role : Role} {opening : KeywordLine}
    (hopening : ofLiteral? line literal role = some opening) :
    opening.role = role ∧ opening.keyword = literal.trimKeyword ∧
      ∃ text : Text, text <:+ line ∧ opening.text = text.trim := by
  obtain ⟨rest, rfl⟩ := isPrefix_of_ofLiteral? hopening
  rw [ofLiteral?_append] at hopening
  split at hopening
  · split at hopening
    · next text hrest =>
        have hsuffix : text <:+ rest :=
          (List.suffix_cons ':' text).trans (hrest ▸ List.dropWhile_suffix isBlank)
        rw [← Option.some.inj hopening]
        exact ⟨rfl, rfl, text, hsuffix.trans (List.suffix_append _ _), rfl⟩
    · cases hopening
  · split at hopening
    · rw [← Option.some.inj hopening]
      exact ⟨rfl, rfl, rest, List.suffix_append _ _, rfl⟩
    · cases hopening

end KeywordLine

namespace KeywordTable

/-- The English entries, in the order in which lines are read against them. -/
theorem entries_english :
    english.entries =
      [("Scenario Template".toList, .outline),
        ("Scenario Outline".toList, .outline),
        ("Background".toList, .background),
        ("Scenarios".toList, .examples),
        ("Scenario".toList, .scenario),
        ("Examples".toList, .examples),
        ("Feature".toList, .feature),
        ("Example".toList, .scenario),
        ("Given".toList, .step .given),
        ("When".toList, .step .when),
        ("Then".toList, .step .«then»),
        ("And".toList, .step .and),
        ("But".toList, .step .but),
        ("*".toList, .step .and)] := by
  decide +kernel

variable {literal : Text} {role : Role}

theorem isLiteral_of_mem_english (hentry : (literal, role) ∈ english.entries) :
    literal.IsLiteral := by
  have hall : ∀ entry ∈ english.entries, entry.1 ≠ [] ∧ Text.trim entry.1 = entry.1 ∧
      '\n' ∉ entry.1 ∧ entry.1.head? ≠ some '\uFEFF' := by
    decide +kernel
  obtain ⟨hne, htrim, hlineFeed, hmark⟩ := hall _ hentry
  have htrimmed := Text.isTrimmed_trimWhile isWhite literal
  rw [← Text.trim_eq_trimWhile, show literal.trim = literal from htrim] at htrimmed
  exact ⟨hne, htrimmed, hlineFeed, hmark⟩

theorem trimKeyword_of_mem_english (hentry : (literal, role) ∈ english.entries) :
    literal.trimKeyword = literal := by
  have hall : ∀ entry ∈ english.entries, Text.trimKeyword entry.1 = entry.1 := by
    decide +kernel
  exact hall _ hentry

/-- Every English literal is the one that is read in front of what belongs behind
it. -/
theorem readLine?_english (hentry : (literal, role) ∈ english.entries) {rest : Text}
    (hrest : ∀ c ∈ rest.head?, c = if role.isStructural then ':' else ' ') :
    english.readLine? (literal ++ rest) =
      KeywordLine.ofLiteral? (literal ++ rest) literal role := by
  rw [entries_english] at hentry
  simp only [List.mem_cons, List.not_mem_nil, or_false, Prod.mk.injEq] at hentry
  -- Both sides compute once the literal and the first character behind it are known.
  rcases hentry with ⟨rfl, rfl⟩ | ⟨rfl, rfl⟩ | ⟨rfl, rfl⟩ | ⟨rfl, rfl⟩ | ⟨rfl, rfl⟩ |
    ⟨rfl, rfl⟩ | ⟨rfl, rfl⟩ | ⟨rfl, rfl⟩ | ⟨rfl, rfl⟩ | ⟨rfl, rfl⟩ | ⟨rfl, rfl⟩ |
    ⟨rfl, rfl⟩ | ⟨rfl, rfl⟩ | ⟨rfl, rfl⟩
  all_goals
    rcases rest with _ | ⟨c, rest⟩
    · rfl
    · obtain rfl := hrest c rfl
      rfl

theorem readLine?_english_structural (hentry : (literal, role) ∈ english.entries)
    (hrole : role.isStructural = true) (text : Text) :
    english.readLine? (literal ++ ':' :: text) =
      some ⟨role, literal, Text.trim text⟩ := by
  rw [readLine?_english hentry (by simp [hrole]), KeywordLine.ofLiteral?_append,
    if_pos hrole,
    trimKeyword_of_mem_english hentry]
  rfl

theorem readLine?_english_step (hentry : (literal, role) ∈ english.entries)
    (hrole : role.isStructural = false) (rest : Text)
    (hrest : ∀ c ∈ rest.head?, c = ' ') :
    english.readLine? (literal ++ rest) = some ⟨role, literal, rest.trim⟩ := by
  have hwhite : rest.head?.all isWhite = true := by
    rw [Option.all_eq_true]
    intro c hc
    rw [hrest c hc]
    decide
  rw [readLine?_english hentry (by simpa [hrole] using hrest),
    KeywordLine.ofLiteral?_append,
    if_neg (by simp [hrole]), if_pos hwhite, trimKeyword_of_mem_english hentry]

/-- No English literal starts with a character that has a meaning of its own. -/
theorem readLine?_english_eq_none {c : Char} (hc : c ∈ ['@', '#', '|', '"', '\x60'])
    (rest : Text) : english.readLine? (c :: rest) = none := by
  simp only [List.mem_cons, List.not_mem_nil, or_false] at hc
  rcases hc with rfl | rfl | rfl | rfl | rfl <;> rfl

/-- What an English keyword line says: an entry of the table, and text of the line. -/
theorem eq_of_readLine?_english {line : Text} {opening : KeywordLine}
    (hopening : english.readLine? line = some opening) :
    (opening.keyword, opening.role) ∈ english.entries ∧
      ∃ text : Text, text <:+ line ∧ opening.text = text.trim := by
  obtain ⟨⟨literal, role⟩, hentry, hread⟩ := List.exists_of_findSome?_eq_some hopening
  obtain ⟨hrole, hkeyword, htext⟩ := KeywordLine.eq_of_ofLiteral? hread
  rw [hrole, hkeyword, trimKeyword_of_mem_english hentry]
  exact ⟨hentry, htext⟩

end KeywordTable

end Gherkin
