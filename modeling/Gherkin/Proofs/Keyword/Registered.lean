import Gherkin.Proofs.KeywordLine
import Mathlib.Data.List.Nodup

/-!
# Registered literals

A keyword table comes about by registering literals, so its entries are narrower than
their type.  Every literal is trimmed and not empty, and no two entries share one.  That
is what makes a keyword in a document tell its role, and what keeps an empty line from
being taken for a keyword.
-/

namespace Gherkin

namespace Text

/-- Trimming a keyword leaves nothing to trim. -/
theorem trimKeyword_trimKeyword (written : Text) :
    written.trimKeyword.trimKeyword = written.trimKeyword := by
  have hprefix := dropEndWhile_isPrefix (fun c => isBlank c || c == ':')
    written.dropBlanks
  have hhead : ∀ c ∈ written.trimKeyword.head?, isBlank c = false := fun c hc =>
    head?_dropWhile isBlank written c (head?_of_isPrefix hprefix c hc)
  have hblanks : written.trimKeyword.dropBlanks = written.trimKeyword :=
    dropWhile_eq_self hhead
  rw [trimKeyword.eq_def written.trimKeyword, hblanks]
  exact dropEndWhile_eq_self (getLast?_dropEndWhile _ _)

end Text

namespace KeywordTable

/-- The tables that there are: the English one, those made of a list of entries, and
those with one more literal registered. -/
inductive IsBuilt : KeywordTable → Prop
  | english : IsBuilt english
  | ofList (entries : List (Text × Role)) : IsBuilt (ofList entries)
  | register {table : KeywordTable} (hbuilt : IsBuilt table) (literal : Text)
      (role : Role) : IsBuilt (table.register literal role)

/-- Literals as they are registered: trimmed, not empty, and each of them once. -/
structure IsRegular (table : KeywordTable) : Prop where
  trimKeyword_eq : ∀ literal ∈ table.literals, literal.trimKeyword = literal
  ne_nil : ∀ literal ∈ table.literals, literal ≠ []
  nodup : table.literals.Nodup

variable {table : KeywordTable}

/-- What holds of the table without entries and is kept by registering a literal holds
of every table. -/
theorem IsBuilt.induct {motive : KeywordTable → Prop} (hbuilt : table.IsBuilt)
    (hempty : motive empty)
    (hregister : ∀ table literal role, motive table →
      motive (KeywordTable.register table literal role)) :
    motive table := by
  have hofList (entries : List (Text × Role)) : motive (KeywordTable.ofList entries) :=
    List.foldlRecOn entries _ hempty fun table htable entry _ =>
      hregister table entry.1 entry.2 htable
  induction hbuilt with
  | english => exact hofList englishEntries
  | ofList entries => exact hofList entries
  | register _ literal role ih => exact hregister _ literal role ih

theorem insertEntry_perm (added : Text × Role) (entries : List (Text × Role)) :
    (insertEntry added entries).Perm (added :: entries) := by
  induction entries with
  | nil => exact .refl _
  | cons entry entries ih =>
      rw [insertEntry]
      split
      · exact .refl _
      · exact (ih.cons entry).trans (.swap added entry entries)

theorem register_of_trimKeyword_eq_nil {literal : Text}
    (hliteral : literal.trimKeyword = []) (role : Role) :
    table.register literal role = table := by
  rw [register, if_pos (List.isEmpty_iff.mpr hliteral)]

theorem register_of_trimKeyword_ne_nil {literal : Text}
    (hliteral : literal.trimKeyword ≠ []) (role : Role) :
    table.register literal role =
      ⟨insertEntry (literal.trimKeyword, role)
        (table.entries.filter fun entry => entry.1 != literal.trimKeyword)⟩ := by
  rw [register, if_neg (by simpa using hliteral)]

/-- A registered literal joins the other literals of the table. -/
theorem literals_register_perm {literal : Text} (hliteral : literal.trimKeyword ≠ [])
    (role : Role) :
    (table.register literal role).literals.Perm
      (literal.trimKeyword ::
        table.literals.filter fun other => other != literal.trimKeyword) := by
  rw [register_of_trimKeyword_ne_nil hliteral, literals, literals, List.filter_map]
  exact (insertEntry_perm _ _).map Prod.fst

theorem IsRegular.register (hregular : table.IsRegular) (literal : Text) (role : Role) :
    (table.register literal role).IsRegular := by
  by_cases hliteral : literal.trimKeyword = []
  · rw [register_of_trimKeyword_eq_nil hliteral]
    exact hregular
  have hperm : (table.register literal role).literals.Perm _ :=
    literals_register_perm hliteral role
  have hcases : ∀ other ∈ (table.register literal role).literals,
      other = literal.trimKeyword ∨ other ∈ table.literals := by
    intro other hother
    exact (List.mem_cons.mp (hperm.mem_iff.mp hother)).imp_right List.mem_of_mem_filter
  refine ⟨fun other hother => ?_, fun other hother => ?_, ?_⟩
  · rcases hcases other hother with rfl | hother
    · exact literal.trimKeyword_trimKeyword
    · exact hregular.trimKeyword_eq other hother
  · rcases hcases other hother with rfl | hother
    · exact hliteral
    · exact hregular.ne_nil other hother
  · rw [hperm.nodup_iff, List.nodup_cons]
    exact ⟨by simp [List.mem_filter], hregular.nodup.filter _⟩

theorem IsBuilt.isRegular (hbuilt : table.IsBuilt) : table.IsRegular := by
  apply hbuilt.induct
  · exact ⟨nofun, nofun, List.nodup_nil⟩
  · exact fun _ literal role hregular => hregular.register literal role

/-- A literal of the table has the role that it stands with. -/
theorem IsRegular.roleOf?_eq (hregular : table.IsRegular) {literal : Text} {role : Role}
    (hentry : (literal, role) ∈ table.entries) : table.roleOf? literal = some role := by
  have hliteral : literal ∈ table.literals := List.mem_map_of_mem hentry
  obtain ⟨front, back, hentries⟩ := List.append_of_mem hentry
  have hnodup := hregular.nodup
  rw [literals, hentries, List.map_append, List.map_cons,
    List.nodup_middle, List.nodup_cons] at hnodup
  rw [roleOf?, hregular.trimKeyword_eq literal hliteral, List.lookup_eq_some_iff]
  refine ⟨front, back, hentries, fun entry hfront => ?_⟩
  have hmem : entry.1 ∈ front.map Prod.fst := List.mem_map_of_mem hfront
  exact bne_iff_ne.mpr fun heq => hnodup.1 (List.mem_append_left _ (heq ▸ hmem))

/-- No literal stands in front of an empty line. -/
theorem IsRegular.readLine?_nil (hregular : table.IsRegular) :
    table.readLine? [] = none := by
  rw [readLine?, List.findSome?_eq_none_iff]
  intro entry hentry
  have hliteral := hregular.ne_nil entry.1 (List.mem_map_of_mem hentry)
  rw [KeywordLine.ofLiteral?, if_neg]
  rwa [List.isPrefixOf_iff_prefix, List.prefix_nil]

/-! ## Roles -/

theorem lookup_cons_eq_if (entry : Text × Role) (entries : List (Text × Role))
    (query : Text) :
    (entry :: entries).lookup query =
      if query = entry.1 then some entry.2 else entries.lookup query := by
  by_cases hquery : query = entry.1
  · rw [if_pos hquery, List.lookup_cons, beq_iff_eq.mpr hquery]
  · rw [if_neg hquery, List.lookup_cons, beq_eq_false_iff_ne.mpr hquery]

theorem lookup_filter (entries : List (Text × Role)) (literal query : Text) :
    (entries.filter fun entry => entry.1 != literal).lookup query =
      if query = literal then none else entries.lookup query := by
  induction entries with
  | nil => simp
  | cons entry entries ih =>
      by_cases hentry : entry.1 = literal
      · rw [List.filter_cons_of_neg (by simpa using hentry), ih, lookup_cons_eq_if,
          hentry]
        by_cases hquery : query = literal <;> simp [hquery]
      · rw [List.filter_cons_of_pos (by simpa using hentry), lookup_cons_eq_if, ih,
          lookup_cons_eq_if]
        by_cases hquery : query = entry.1 <;> simp [hquery, hentry]

theorem lookup_insertEntry {added : Text × Role} {entries : List (Text × Role)}
    (hfresh : ∀ entry ∈ entries, entry.1 ≠ added.1) (query : Text) :
    (insertEntry added entries).lookup query =
      if query = added.1 then some added.2 else entries.lookup query := by
  induction entries with
  | nil => exact lookup_cons_eq_if added [] query
  | cons entry entries ih =>
      obtain ⟨hentry, hrest⟩ := List.forall_mem_cons.mp hfresh
      rw [insertEntry]
      split
      · exact lookup_cons_eq_if added (entry :: entries) query
      · rw [lookup_cons_eq_if, ih hrest, lookup_cons_eq_if]
        by_cases hquery : query = entry.1 <;> simp [hquery, hentry]

/-- Registering a literal changes the role of that literal and of no other. -/
theorem roleOf?_register (table : KeywordTable) (literal : Text) (role : Role)
    (query : Text) :
    (table.register literal role).roleOf? query =
      if literal.trimKeyword ≠ [] ∧ query.trimKeyword = literal.trimKeyword
      then some role
      else table.roleOf? query := by
  by_cases hliteral : literal.trimKeyword = []
  · rw [register_of_trimKeyword_eq_nil hliteral, if_neg (by simp [hliteral])]
  · have hfresh : ∀ entry ∈ table.entries.filter (fun entry =>
        entry.1 != literal.trimKeyword), entry.1 ≠ literal.trimKeyword := by
      intro entry hentry
      simpa using (List.mem_filter.mp hentry).2
    rw [register_of_trimKeyword_ne_nil hliteral, roleOf?, lookup_insertEntry hfresh,
      lookup_filter, roleOf?]
    by_cases hquery : query.trimKeyword = literal.trimKeyword <;>
      simp [hquery, hliteral]

/-- Registering a literal with the role that it has changes no role. -/
theorem roleOf?_register_self {literal : Text} {role : Role}
    (hrole : table.roleOf? literal = some role) (query : Text) :
    (table.register literal role).roleOf? query = table.roleOf? query := by
  rw [roleOf?_register]
  split
  · next hquery => rw [← hrole, roleOf?, roleOf?, hquery.2]
  · rfl

end KeywordTable

end Gherkin
