import Gherkin.Proofs.Keyword.Precedence
import Mathlib.Data.Finset.Card

/-!
# Tables and the registrations they come from

A keyword table is a map from literals to roles, made by registering one literal after
the other.  Of a history of registrations it keeps each literal once, with its last
role, and it keeps them in an order that the history determines: longer literals in
front of shorter ones, and those of one length as they were last registered.
-/

namespace Gherkin.KeywordTable

variable {table : KeywordTable} {history earlier later : List (Text × Role)}
  {literal front back : Text} {role : Role}

/-- The table comes about by registering the entries of the history in their order. -/
inductive IsBuiltBy : KeywordTable → List (Text × Role) → Prop
  | english : IsBuiltBy english englishEntries
  | ofList (entries : List (Text × Role)) : IsBuiltBy (ofList entries) entries
  | register {table : KeywordTable} {history : List (Text × Role)}
      (hbuilt : IsBuiltBy table history) (literal : Text) (role : Role) :
      IsBuiltBy (table.register literal role) (history ++ [(literal, role)])

/-- The literals that a history registers.  An empty one is ignored. -/
def registered (history : List (Text × Role)) : List Text :=
  (history.map fun entry => entry.1.trimKeyword).filter (· ≠ [])

/-- The role of the last registration of a literal. -/
def lastRole? (history : List (Text × Role)) (literal : Text) : Option Role :=
  (history.filter fun entry => entry.1.trimKeyword == literal).getLast?.map Prod.snd

/-- The last registration of one literal came before that of another. -/
def RegisteredBefore (history : List (Text × Role)) (front back : Text) : Prop :=
  ∃ earlier later, history = earlier ++ later ∧ front ∈ registered earlier ∧
    front ∉ registered later ∧ back ∈ registered later

/-- One literal stands in front of another: it is longer, or it is equally long and was
registered before it. -/
structure Precedes (history : List (Text × Role)) (front back : Text) : Prop where
  length_le : back.utf8Length ≤ front.utf8Length
  before : back.utf8Length = front.utf8Length → RegisteredBefore history front back

/-! ## Histories -/

theorem registered_append (earlier later : List (Text × Role)) :
    registered (earlier ++ later) = registered earlier ++ registered later := by
  rw [registered, List.map_append, List.filter_append, registered, registered]

theorem mem_registered_singleton :
    front ∈ registered [(literal, role)] ↔
      literal.trimKeyword ≠ [] ∧ front = literal.trimKeyword := by
  rw [registered, List.map_singleton, List.mem_filter, List.mem_singleton, and_comm,
    decide_eq_true_eq]
  exact and_congr_left fun heq => by rw [heq]

theorem lastRole?_concat :
    lastRole? (history ++ [(literal, role)]) front =
      if literal.trimKeyword = front then some role else lastRole? history front := by
  rw [lastRole?, List.filter_append]
  by_cases hfront : literal.trimKeyword = front
  · simp [hfront]
  · have hnone : [(literal, role)].filter (fun entry => entry.1.trimKeyword == front) =
      [] := by
      simpa using hfront
    rw [hnone, List.append_nil, if_neg hfront, lastRole?]

/-- Later registrations of other literals change nothing about the order of two. -/
theorem Precedes.append (hprecedes : Precedes earlier front back)
    (hlater : front ∉ registered later) : Precedes (earlier ++ later) front back where
  length_le := hprecedes.length_le
  before hlength := by
    obtain ⟨before, behind, rfl, hbefore, hbehind, hback⟩ := hprecedes.before hlength
    refine ⟨before, behind ++ later, List.append_assoc _ _ _, hbefore, ?_, ?_⟩
    · rw [registered_append, List.mem_append]
      exact not_or_intro hbehind hlater
    · rw [registered_append]
      exact List.mem_append_left _ hback

/-- What holds of the table without entries and no history, and is kept by one more
registration, holds of every table and the history that it comes from. -/
theorem IsBuiltBy.induct {motive : KeywordTable → List (Text × Role) → Prop}
    (hbuilt : table.IsBuiltBy history) (hempty : motive empty [])
    (hregister : ∀ table history literal role, IsBuiltBy table history →
      motive table history →
        motive (KeywordTable.register table literal role)
          (history ++ [(literal, role)])) :
    motive table history := by
  have hofList (entries : List (Text × Role)) :
      motive (KeywordTable.ofList entries) entries := by
    induction entries using List.reverseRecOn with
    | nil => exact hempty
    | append_singleton entries entry ih =>
        rw [KeywordTable.ofList, registerAll, List.foldl_concat]
        exact hregister _ entries entry.1 entry.2 (.ofList entries) ih
  induction hbuilt with
  | english => exact hofList englishEntries
  | ofList entries => exact hofList entries
  | register hbuilt literal role ih => exact hregister _ _ literal role hbuilt ih

theorem IsBuiltBy.isBuilt (hbuilt : table.IsBuiltBy history) : table.IsBuilt := by
  induction hbuilt with
  | english => exact .english
  | ofList entries => exact .ofList entries
  | register _ literal role ih => exact ih.register literal role

/-! ## One more registration -/

theorem mem_literals_register :
    front ∈ (table.register literal role).literals ↔
      front ∈ table.literals ∨ front ∈ registered [(literal, role)] := by
  rw [mem_registered_singleton]
  by_cases hliteral : literal.trimKeyword = []
  · simp [register_of_trimKeyword_eq_nil hliteral, hliteral]
  · rw [(literals_register_perm hliteral role).mem_iff, List.mem_cons, List.mem_filter]
    by_cases hfront : front = literal.trimKeyword <;> simp [hfront, hliteral]

theorem filter_insertEntry (added : Text × Role) (entries : List (Text × Role)) :
    (insertEntry added entries).filter (fun entry => entry.1 != added.1) =
      entries.filter fun entry => entry.1 != added.1 := by
  induction entries with
  | nil => simp [insertEntry]
  | cons entry entries ih =>
      rw [insertEntry]
      split
      · rw [List.filter_cons_of_neg (by simp)]
      · rw [List.filter_cons, ih, List.filter_cons]

/-- Of two registrations of a literal the first one leaves no trace. -/
theorem register_register (table : KeywordTable) (literal : Text)
    (first second : Role) :
    (table.register literal first).register literal second =
      table.register literal second := by
  by_cases hliteral : literal.trimKeyword = []
  · rw [register_of_trimKeyword_eq_nil hliteral first]
  · rw [register_of_trimKeyword_ne_nil hliteral,
      register_of_trimKeyword_ne_nil hliteral,
      register_of_trimKeyword_ne_nil hliteral, filter_insertEntry (_, first),
      List.filter_filter]
    simp only [Bool.and_self]

/-! ## What a table keeps of its history -/

namespace IsBuiltBy

theorem mem_literals_iff (hbuilt : table.IsBuiltBy history) :
    front ∈ table.literals ↔ front ∈ registered history := by
  apply hbuilt.induct
  · exact Iff.rfl
  · intro table history literal role _ ih
    rw [mem_literals_register, ih, registered_append, List.mem_append]

theorem pairwise_precedes (hbuilt : table.IsBuiltBy history) :
    table.literals.Pairwise (Precedes history) := by
  rw [literals, List.pairwise_map]
  apply hbuilt.induct
  · exact List.Pairwise.nil
  · intro table history literal role hbuilt ih
    by_cases hliteral : literal.trimKeyword = []
    · rw [register_of_trimKeyword_eq_nil hliteral]
      apply ih.imp
      intro front back hprecedes
      exact hprecedes.append fun hfront =>
        (mem_registered_singleton.mp hfront).1 hliteral
    · rw [register_of_trimKeyword_ne_nil hliteral]
      have hordered : IsOrdered
          ⟨table.entries.filter fun entry => entry.1 != literal.trimKeyword⟩ :=
        List.Pairwise.filter _ hbuilt.isBuilt.isOrdered
      have hother : ∀ entry ∈ table.entries.filter (fun entry =>
          entry.1 != literal.trimKeyword), entry.1 ∉ registered [(literal, role)] := by
        intro entry hentry hmem
        exact bne_iff_ne.mp (List.mem_filter.mp hentry).2
          (mem_registered_singleton.mp hmem).2
      apply pairwise_insertEntry (Precedes (history ++ [(literal, role)])) hordered
      · apply (ih.filter _).imp_of_mem
        intro front back hfront _ hprecedes
        exact hprecedes.append (hother front hfront)
      · intro entry hentry hlength
        refine ⟨hlength, fun _ =>
          ⟨history, [(literal, role)], rfl, ?_, hother entry hentry, ?_⟩⟩
        · apply hbuilt.mem_literals_iff.mp
          exact List.mem_map_of_mem (List.mem_of_mem_filter hentry)
        · exact mem_registered_singleton.mpr ⟨hliteral, rfl⟩
      · intro entry _ hlength
        exact ⟨hlength.le, fun heq => absurd heq hlength.ne⟩

theorem roleOf?_eq (hbuilt : table.IsBuiltBy history) (query : Text) :
    table.roleOf? query =
      if query.trimKeyword = [] then none
      else lastRole? history query.trimKeyword := by
  apply hbuilt.induct
  · exact (ite_self none).symm
  · intro table history literal role _ ih
    rw [roleOf?_register, ih, lastRole?_concat]
    by_cases hquery : query.trimKeyword = literal.trimKeyword
    · by_cases hliteral : literal.trimKeyword = [] <;> simp [hquery, hliteral]
    · simp [hquery, Ne.symm hquery]

theorem size_eq (hbuilt : table.IsBuiltBy history) :
    table.size = (registered history).toFinset.card := by
  have hliterals : table.literals.toFinset = (registered history).toFinset := by
    ext literal
    rw [List.mem_toFinset, List.mem_toFinset, hbuilt.mem_literals_iff]
  rw [← hliterals, List.toFinset_card_of_nodup hbuilt.isBuilt.isRegular.nodup, literals,
    List.length_map, size]

end IsBuiltBy

/-- A table is an ordered map.  Its literals are trimmed, not empty and different from
each other, the longer ones in front of the shorter ones and those of one length in the
order of their last registration.  Registering a literal changes its role and no other,
so each literal has the role of its last registration, and there are as many literals as
different ones were registered.  Registering a literal twice is registering it the
second time. -/
theorem ordered_map_of_isBuiltBy (hbuilt : table.IsBuiltBy history) :
    table.literals.Nodup ∧
    (∀ literal ∈ table.literals, literal ≠ [] ∧ literal.trimKeyword = literal) ∧
    table.literals.Pairwise (Precedes history) ∧
    (∀ literal role query, (table.register literal role).roleOf? query =
      if literal.trimKeyword ≠ [] ∧ query.trimKeyword = literal.trimKeyword
      then some role
      else table.roleOf? query) ∧
    (∀ query, table.roleOf? query =
      if query.trimKeyword = [] then none
      else lastRole? history query.trimKeyword) ∧
    table.size = (registered history).toFinset.card ∧
    ∀ literal first second,
      (table.register literal first).register literal second =
        table.register literal second := by
  have hregular := hbuilt.isBuilt.isRegular
  exact ⟨hregular.nodup,
    fun literal hliteral =>
      ⟨hregular.ne_nil literal hliteral, hregular.trimKeyword_eq literal hliteral⟩,
    hbuilt.pairwise_precedes, roleOf?_register table, hbuilt.roleOf?_eq, hbuilt.size_eq,
    register_register table⟩

/-- Registrations of which one is empty once it is trimmed, one has more bytes than
characters, and one gives a new role to an earlier literal. -/
def renewedHistory : List (Text × Role) :=
  [("Then".toList, .step .«then»), ("When".toList, .step .when),
    (" : ".toList, .feature),
    ("Été".toList, .step .given), ("\tThen :".toList, .scenario)]

theorem ordered_map_of_isBuiltBy_renewedHistory :
    let table := ofList renewedHistory
    table.IsBuiltBy renewedHistory ∧
      table.literals = ["Été".toList, "When".toList, "Then".toList] ∧
      RegisteredBefore renewedHistory "When".toList "Then".toList ∧
      table.roleOf? " Then:".toList = some .scenario ∧
      table.size = 3 ∧
      (table.register "Été".toList .outline).register "Été".toList (.step .given) =
        table.register "Été".toList (.step .given) := by
  intro table
  have hbuilt : table.IsBuiltBy renewedHistory := .ofList renewedHistory
  have hliterals : table.literals = ["Été".toList, "When".toList, "Then".toList] := by
    decide +kernel
  obtain ⟨-, -, hordered, -, hroles, hsize, hagain⟩ := ordered_map_of_isBuiltBy hbuilt
  rw [hliterals] at hordered
  have hlast := (List.pairwise_cons.mp hordered).2
  have hprecedes := (List.pairwise_cons.mp hlast).1 "Then".toList List.mem_cons_self
  refine ⟨hbuilt, hliterals, hprecedes.before rfl, ?_, ?_, hagain _ _ _⟩
  · rw [hroles]
    decide +kernel
  · rw [hsize]
    decide +kernel

end Gherkin.KeywordTable
