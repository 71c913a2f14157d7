import Gherkin.Proofs.Keyword.Registered
import Gherkin.Proofs.Parsed

/-!
# The longest literal is read

Several literals of a table can stand in front of one line.  All of them are prefixes of
the line, so the shorter ones are prefixes of the longer ones, and two that are equally
long are the same.  As the entries of a table are ordered by their length, the first one
that opens the line is the longest one that does, and nothing else about the order
matters.  So the roles that a table gives determine everything that is read with it,
whatever the history of its registrations.
-/

namespace Gherkin

namespace Text

variable {line left right : Text}

theorem utf8Length_append (front back : Text) :
    (front ++ back).utf8Length = front.utf8Length + back.utf8Length := by
  induction front with
  | nil => exact (Nat.zero_add _).symm
  | cons c front ih => rw [List.cons_append, utf8Length, utf8Length, ih, Nat.add_assoc]

theorem utf8Length_eq_zero_iff {text : Text} : text.utf8Length = 0 ↔ text = [] := by
  cases text with
  | nil => simp [utf8Length]
  | cons c text =>
      have hsize := c.utf8Size_pos
      constructor
      · intro hlength
        rw [utf8Length] at hlength
        omega
      · exact nofun

/-- Of two texts in front of one line the shorter one stands in front of the other. -/
theorem isPrefix_of_utf8Length_le (hleft : left <+: line) (hright : right <+: line)
    (hlength : left.utf8Length ≤ right.utf8Length) : left <+: right := by
  rcases List.prefix_or_prefix_of_prefix hleft hright with hprefix | ⟨extra, rfl⟩
  · exact hprefix
  · rw [utf8Length_append] at hlength
    obtain rfl : extra = [] := by
      apply utf8Length_eq_zero_iff.mp
      omega
    exact ⟨[], by rw [List.append_nil, List.append_nil]⟩

end Text

namespace KeywordTable

variable {table left right : KeywordTable} {line : Text} {opening : KeywordLine}

/-! ## Entries by length -/

/-- No entry is longer than one in front of it. -/
def IsOrdered (table : KeywordTable) : Prop :=
  table.entries.Pairwise fun front back => back.1.utf8Length ≤ front.1.utf8Length

/-- Putting an entry in keeps a relation between the literals, if the entry has it to
the longer and the equally long literals in front of it and to the shorter ones behind
it. -/
theorem pairwise_insertEntry (precedes : Text → Text → Prop) {added : Text × Role}
    {entries : List (Text × Role)} (hordered : IsOrdered ⟨entries⟩)
    (hentries : entries.Pairwise fun front back => precedes front.1 back.1)
    (hfront : ∀ entry ∈ entries, added.1.utf8Length ≤ entry.1.utf8Length →
      precedes entry.1 added.1)
    (hback : ∀ entry ∈ entries, entry.1.utf8Length < added.1.utf8Length →
      precedes added.1 entry.1) :
    (insertEntry added entries).Pairwise fun front back => precedes front.1 back.1 := by
  induction entries with
  | nil => exact List.pairwise_singleton _ _
  | cons entry entries ih =>
      obtain ⟨hlength, hrestOrdered⟩ := List.pairwise_cons.mp hordered
      obtain ⟨hentry, hrest⟩ := List.pairwise_cons.mp hentries
      rw [insertEntry]
      split
      · next hshorter =>
          apply List.pairwise_cons.mpr
          refine ⟨fun other hother => hback other hother ?_, hentries⟩
          rcases List.mem_cons.mp hother with rfl | hother
          · exact hshorter
          · exact (hlength other hother).trans_lt hshorter
      · next hlonger =>
          have hih := ih hrestOrdered hrest
            (fun other hother => hfront other (List.mem_cons_of_mem entry hother))
            (fun other hother => hback other (List.mem_cons_of_mem entry hother))
          apply List.pairwise_cons.mpr
          refine ⟨fun other hother => ?_, hih⟩
          rcases List.mem_cons.mp ((insertEntry_perm added entries).mem_iff.mp hother)
            with rfl | hother
          · exact hfront entry List.mem_cons_self (Nat.not_lt.mp hlonger)
          · exact hentry other hother

theorem IsOrdered.insertEntry (added : Text × Role) {entries : List (Text × Role)}
    (hentries : IsOrdered ⟨entries⟩) : IsOrdered ⟨insertEntry added entries⟩ :=
  pairwise_insertEntry (fun front back => back.utf8Length ≤ front.utf8Length) hentries
    hentries (fun _ _ hlength => hlength) fun _ _ hlength => hlength.le

theorem IsOrdered.register (hordered : table.IsOrdered) (literal : Text) (role : Role) :
    (table.register literal role).IsOrdered := by
  by_cases hliteral : literal.trimKeyword = []
  · rw [register_of_trimKeyword_eq_nil hliteral]
    exact hordered
  · rw [register_of_trimKeyword_ne_nil hliteral]
    have hfiltered :
        IsOrdered ⟨table.entries.filter fun entry => entry.1 != literal.trimKeyword⟩ :=
      List.Pairwise.filter _ hordered
    exact hfiltered.insertEntry (literal.trimKeyword, role)

theorem IsBuilt.isOrdered (hbuilt : table.IsBuilt) : table.IsOrdered := by
  apply hbuilt.induct
  · exact List.Pairwise.nil
  · exact fun _ literal role hordered => hordered.register literal role

/-! ## The entry that is read -/

/-- The entry opens the line, and the literals of all entries that do are prefixes of
its own. -/
structure Prefers (table : KeywordTable) (line : Text) (opening : KeywordLine)
    (entry : Text × Role) : Prop where
  mem : entry ∈ table.entries
  opens : KeywordLine.ofLiteral? line entry.1 entry.2 = some opening
  isPrefix : ∀ other ∈ table.entries,
    (KeywordLine.ofLiteral? line other.1 other.2).isSome = true → other.1 <+: entry.1

theorem IsOrdered.exists_prefers (hordered : table.IsOrdered)
    (hread : table.readLine? line = some opening) :
    ∃ entry, table.Prefers line opening entry := by
  obtain ⟨front, entry, back, hentries, hopens, hfront⟩ :=
    List.findSome?_eq_some_iff.mp hread
  have hentry : entry ∈ table.entries := by rw [hentries]; simp
  refine ⟨entry, hentry, hopens, fun other hother hothers => ?_⟩
  obtain ⟨otherOpening, hotherOpens⟩ := Option.isSome_iff_exists.mp hothers
  have hlength : other.1.utf8Length ≤ entry.1.utf8Length := by
    rw [hentries] at hother
    rcases List.mem_append.mp hother with hother | hother
    · rw [hfront other hother] at hotherOpens
      cases hotherOpens
    · have hback : IsOrdered ⟨entry :: back⟩ := by
        rw [IsOrdered, hentries] at hordered
        exact (List.pairwise_append.mp hordered).2.1
      rcases List.mem_cons.mp hother with rfl | hother
      · exact le_rfl
      · exact (List.pairwise_cons.mp hback).1 other hother
  exact Text.isPrefix_of_utf8Length_le (KeywordLine.isPrefix_of_ofLiteral? hotherOpens)
    (KeywordLine.isPrefix_of_ofLiteral? hopens) hlength

/-- What is read in a line is what the longest literal that opens it says. -/
theorem readLine?_eq_some_iff (hregular : table.IsRegular)
    (hordered : table.IsOrdered) :
    table.readLine? line = some opening ↔
      ∃ entry, table.Prefers line opening entry := by
  constructor
  · exact hordered.exists_prefers
  · rintro ⟨entry, hentry⟩
    have hsome : (table.readLine? line).isSome = true := by
      apply List.findSome?_isSome_iff.mpr
      exact ⟨entry, hentry.mem, by rw [hentry.opens]; rfl⟩
    obtain ⟨found, hread⟩ := Option.isSome_iff_exists.mp hsome
    obtain ⟨other, hother⟩ := hordered.exists_prefers hread
    -- Each of the two literals is a prefix of the other, and a literal has one role.
    have hliteral : other.1 = entry.1 := by
      apply List.IsPrefix.eq_of_length_le
      · exact hentry.isPrefix other hother.mem (by rw [hother.opens]; rfl)
      · exact (hother.isPrefix entry hentry.mem (by rw [hentry.opens]; rfl)).length_le
    have hrole : other.2 = entry.2 := by
      have hotherRole := hregular.roleOf?_eq hother.mem
      rw [hliteral, hregular.roleOf?_eq hentry.mem] at hotherRole
      exact (Option.some.inj hotherRole).symm
    have hopens := hother.opens
    rw [hliteral, hrole, hentry.opens] at hopens
    rw [hread, hopens]

/-! ## Tables that give the same roles -/

/-- The entries of a table are the literals that have a role, with their roles. -/
theorem IsRegular.mem_entries_iff (hregular : table.IsRegular) {literal : Text}
    {role : Role} :
    (literal, role) ∈ table.entries ↔
      literal.trimKeyword = literal ∧ table.roleOf? literal = some role := by
  constructor
  · intro hentry
    exact ⟨hregular.trimKeyword_eq literal (List.mem_map_of_mem hentry),
      hregular.roleOf?_eq hentry⟩
  · rintro ⟨htrim, hrole⟩
    rw [roleOf?, htrim] at hrole
    obtain ⟨front, back, hentries, -⟩ := List.lookup_eq_some_iff.mp hrole
    rw [hentries]
    simp

theorem prefers_iff_of_mem_iff
    (hentries : ∀ entry, entry ∈ left.entries ↔ entry ∈ right.entries)
    {entry : Text × Role} :
    left.Prefers line opening entry ↔ right.Prefers line opening entry := by
  constructor
  · intro hprefers
    exact ⟨(hentries entry).mp hprefers.mem, hprefers.opens,
      fun other hother => hprefers.isPrefix other ((hentries other).mpr hother)⟩
  · intro hprefers
    exact ⟨(hentries entry).mpr hprefers.mem, hprefers.opens,
      fun other hother => hprefers.isPrefix other ((hentries other).mp hother)⟩

/-- Tables that give the same roles read the same keywords. -/
theorem readLine?_eq_of_roleOf?_eq (hleft : left.IsBuilt) (hright : right.IsBuilt)
    (hroles : ∀ literal, left.roleOf? literal = right.roleOf? literal) (line : Text) :
    left.readLine? line = right.readLine? line := by
  have hentries (entry : Text × Role) : entry ∈ left.entries ↔
      entry ∈ right.entries := by
    rw [hleft.isRegular.mem_entries_iff, hright.isRegular.mem_entries_iff, hroles]
  apply Option.ext
  intro opening
  calc
    left.readLine? line = some opening ↔
        ∃ entry, left.Prefers line opening entry :=
      readLine?_eq_some_iff hleft.isRegular hleft.isOrdered
    _ ↔ ∃ entry, right.Prefers line opening entry :=
      exists_congr fun _ => prefers_iff_of_mem_iff hentries
    _ ↔ right.readLine? line = some opening :=
      (readLine?_eq_some_iff hright.isRegular hright.isOrdered).symm

end KeywordTable

/-! ## What is read with a table -/

section

variable {left right : KeywordTable}

theorem OpenFence.readLine_congr
    (hread : ∀ line, left.readLine? line = right.readLine? line) (number : Nat)
    (opened? : Option OpenFence) (line : Text) :
    readLine left number opened? line = readLine right number opened? line := by
  simp only [readLine, LineKind.ofLine, hread]

/-- A scan asks its table for the keywords of lines and for nothing else. -/
theorem Scanner.scanLines_congr
    (hread : ∀ line, left.readLine? line = right.readLine? line) (read : Nat)
    (opened? : Option OpenFence) (lines : List Text) :
    scanLines left read opened? lines = scanLines right read opened? lines := by
  induction lines generalizing read opened? with
  | nil => rfl
  | cons line lines ih =>
      rw [scanLines, scanLines, OpenFence.readLine_congr hread]
      simp only [ih]

/-- Two tables that give every literal the same role are the same to a reader: they find
the same keyword in every line, and every document is scanned and read alike. -/
theorem read_alike_of_roleOf?_eq (hleft : left.IsBuilt) (hright : right.IsBuilt)
    (hroles : ∀ literal, left.roleOf? literal = right.roleOf? literal) :
    (∀ line, left.readLine? line = right.readLine? line) ∧
      (∀ document, scan left document = scan right document) ∧
      ∀ policy uri document,
        parse ⟨left, policy⟩ uri document = parse ⟨right, policy⟩ uri document := by
  have hread := KeywordTable.readLine?_eq_of_roleOf?_eq hleft hright hroles
  have hscan (document : Text) : scan left document = scan right document :=
    Scanner.scanLines_congr hread 0 none document.lines
  refine ⟨hread, hscan, fun policy uri document => ?_⟩
  simp only [parse, hscan]

end

/-- The English table with a literal registered once more, which puts it behind another
one of its length. -/
def reorderedTable : KeywordTable :=
  .register .english "Feature".toList .feature

theorem read_alike_reorderedTable :
    reorderedTable.IsBuilt ∧ reorderedTable ≠ .english ∧
      (∀ literal, reorderedTable.roleOf? literal =
        KeywordTable.english.roleOf? literal) ∧
      reorderedTable.readLine? "Feature: F".toList =
        some ⟨.feature, "Feature".toList, "F".toList⟩ ∧
      parse { keywords := reorderedTable } "u".toList sampleDocument =
        .ok sampleFeature := by
  have hbuilt : reorderedTable.IsBuilt := KeywordTable.IsBuilt.english.register _ _
  have hroles : ∀ literal,
      reorderedTable.roleOf? literal = KeywordTable.english.roleOf? literal :=
    KeywordTable.roleOf?_register_self rfl
  obtain ⟨hread, -, hparse⟩ := read_alike_of_roleOf?_eq hbuilt .english hroles
  refine ⟨hbuilt, by decide +kernel, hroles, ?_, ?_⟩
  · rw [hread]
    rfl
  · rw [hparse .attach]
    exact parse_sampleDocument

end Gherkin
