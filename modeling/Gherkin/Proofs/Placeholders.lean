import Gherkin.Outline.Placeholder
import Mathlib.Data.List.Infix
import Mathlib.Data.List.TakeWhile

/-!
# Where placeholders are found

A placeholder starts at an opening bracket if neither white space nor a closing bracket
is behind it and a closing bracket follows later on.  Its name ends at the first closing
bracket, so there is at most one placeholder that starts at a given place.  A text is
cut from the left: what starts a placeholder is one, whatever other brackets are in it,
and the search goes on behind it.
-/

namespace Gherkin

namespace Text

variable {text rest front back name : Text} {c first : Char} {pieces : List Piece}

/-- What can stand between the brackets of a placeholder. -/
@[mk_iff]
structure IsColumnName (name : Text) : Prop where
  ne_nil : name ≠ []
  head : ∀ c ∈ name.head?, isWhite c = false
  no_bracket : '>' ∉ name

instance : DecidablePred IsColumnName := fun name =>
  decidable_of_iff
    (name ≠ [] ∧ name.head?.all (fun c => !isWhite c) = true ∧ '>' ∉ name)
    (by simp [isColumnName_iff, Option.all_eq_true])

/-- A placeholder stands at the front of the text. -/
def StartsPlaceholder (text : Text) : Prop :=
  ∃ name, IsColumnName name ∧ (Piece.placeholder name).text <+: text

/-- A placeholder stands somewhere in the text. -/
def HasPlaceholder (text : Text) : Prop :=
  ∃ name, IsColumnName name ∧ (Piece.placeholder name).text <:+: text

/-- The text consists of these pieces, if it is read from the left and a placeholder is
taken wherever one stands. -/
inductive IsCutInto : Text → List Piece → Prop
  | nil : IsCutInto [] []
  | placeholder {name rest : Text} {pieces : List Piece} (hname : name.IsColumnName)
      (hrest : IsCutInto rest pieces) :
      IsCutInto ('<' :: name ++ '>' :: rest) (.placeholder name :: pieces)
  | char {c : Char} {rest : Text} {pieces : List Piece}
      (hstart : ¬ StartsPlaceholder (c :: rest)) (hrest : IsCutInto rest pieces) :
      IsCutInto (c :: rest) (.char c :: pieces)

/-! ## Placeholders at the front -/

theorem IsColumnName.takeWhile_eq (hname : name.IsColumnName) (rest : Text) :
    (name ++ '>' :: rest).takeWhile (· != '>') = name := by
  rw [List.takeWhile_append_of_pos, List.takeWhile_cons_of_neg (by simp),
    List.append_nil]
  intro c hc
  exact bne_iff_ne.mpr fun heq => hname.no_bracket (heq ▸ hc)

theorem IsColumnName.any_head? (hname : name.IsColumnName) :
    name.head?.any (!isWhite ·) = true := by
  obtain ⟨c, tail, rfl⟩ := List.exists_cons_of_ne_nil hname.ne_nil
  simpa using hname.head c rfl

theorem IsColumnName.placeholder?_eq (hname : name.IsColumnName) (rest : Text) :
    placeholder? ('<' :: name ++ '>' :: rest) = some name := by
  rw [List.cons_append, placeholder?, hname.takeWhile_eq, hname.any_head?]
  simp

/-- What a placeholder at the front is called. -/
theorem placeholder?_eq_some_iff :
    text.placeholder? = some name ↔
      name.IsColumnName ∧ (Piece.placeholder name).text <+: text := by
  constructor
  · intro hplaceholder
    obtain ⟨rest, rfl⟩ := eq_of_placeholder?_eq_some hplaceholder
    rw [List.cons_append, placeholder?] at hplaceholder
    split at hplaceholder
    · next hcond =>
        have htake := Option.some.inj hplaceholder
        rw [htake, Bool.and_eq_true] at hcond
        obtain ⟨c, hc, hwhite⟩ := (Option.any_eq_true _ _).mp hcond.2
        refine ⟨⟨?_, ?_, ?_⟩, rest, by simp [Piece.text]⟩
        · rintro rfl
          cases hc
        · intro d hd
          obtain rfl := Option.some.inj (hc.symm.trans hd)
          simpa using hwhite
        · intro hmem
          rw [← htake] at hmem
          simpa using List.mem_takeWhile_imp hmem
    · cases hplaceholder
  · rintro ⟨hname, rest, rfl⟩
    rw [Piece.text, List.append_assoc, List.singleton_append]
    exact hname.placeholder?_eq rest

theorem placeholder?_eq_none_iff : text.placeholder? = none ↔
    ¬ text.StartsPlaceholder := by
  rw [Option.eq_none_iff_forall_ne_some, StartsPlaceholder, not_exists]
  exact forall_congr' fun name => not_congr placeholder?_eq_some_iff

/-- An opening bracket starts a placeholder if neither white space nor a closing bracket
is behind it and a closing bracket follows later. -/
theorem startsPlaceholder_cons_cons_iff :
    StartsPlaceholder (c :: first :: rest) ↔
      c = '<' ∧ isWhite first = false ∧ first ≠ '>' ∧ '>' ∈ rest := by
  constructor
  · rintro ⟨name, hname, back, hback⟩
    obtain ⟨d, tail, rfl⟩ := List.exists_cons_of_ne_nil hname.ne_nil
    simp only [Piece.text, List.cons_append, List.cons.injEq] at hback
    obtain ⟨rfl, rfl, hback⟩ := hback
    refine ⟨rfl, hname.head d rfl, ?_, ?_⟩
    · rintro rfl
      exact hname.no_bracket List.mem_cons_self
    · rw [← hback]
      simp
  · rintro ⟨rfl, hwhite, hbracket, hclosed⟩
    obtain ⟨tail, back, rfl, htail⟩ := List.eq_append_cons_of_mem hclosed
    refine ⟨first :: tail, ⟨List.cons_ne_nil _ _, ?_, ?_⟩, back, by simp [Piece.text]⟩
    · rintro d ⟨⟩
      exact hwhite
    · rw [List.mem_cons, not_or]
      exact ⟨hbracket.symm, htail⟩

theorem hasPlaceholder_cons_iff :
    HasPlaceholder (c :: text) ↔
      StartsPlaceholder (c :: text) ∨ HasPlaceholder text := by
  simp only [HasPlaceholder, StartsPlaceholder, List.infix_cons_iff, and_or_left,
    exists_or]

theorem StartsPlaceholder.eq_bracket (hstart : StartsPlaceholder (c :: text)) :
    c = '<' := by
  obtain ⟨name, -, hstarts⟩ := hstart
  exact (List.cons_prefix_cons.mp hstarts).1.symm

theorem not_hasPlaceholder_nil : ¬ HasPlaceholder [] := by
  rintro ⟨name, -, hinfix⟩
  exact List.cons_ne_nil _ _ (List.infix_nil.mp hinfix)

/-- No placeholder starts in a text without an opening bracket. -/
theorem HasPlaceholder.of_append (hfront : '<' ∉ front)
    (hhas : HasPlaceholder (front ++ back)) : HasPlaceholder back := by
  induction front with
  | nil => exact hhas
  | cons c front ih =>
      rw [List.mem_cons, not_or] at hfront
      obtain ⟨hc, hfront⟩ := hfront
      rw [List.cons_append, hasPlaceholder_cons_iff] at hhas
      rcases hhas with hstart | hhas
      · exact absurd hstart.eq_bracket.symm hc
      · exact ih hfront hhas

/-! ## Pieces -/

/-- What is left of the text after a skip is cut into the pieces that are found there.
-/
theorem isCutInto_piecesFrom (skip : Nat) (text : Text) :
    IsCutInto (text.drop skip) (piecesFrom skip text) := by
  induction text generalizing skip with
  | nil =>
      rw [List.drop_nil]
      exact .nil
  | cons c rest ih =>
      cases skip with
      | succ skip => exact ih skip
      | zero =>
          rw [List.drop_zero, piecesFrom]
          split
          · next name hplaceholder =>
              have hname := (placeholder?_eq_some_iff.mp hplaceholder).1
              obtain ⟨tail, htext⟩ := eq_of_placeholder?_eq_some hplaceholder
              rw [List.cons_append] at htext
              obtain ⟨rfl, rfl⟩ := List.cons.inj htext
              have hrest := ih (name.length + 1)
              rw [List.drop_length_add_append] at hrest
              exact .placeholder hname hrest
          · next hplaceholder =>
              exact .char (placeholder?_eq_none_iff.mp hplaceholder) (ih 0)

theorem isCutInto_pieces (text : Text) : text.IsCutInto text.pieces :=
  isCutInto_piecesFrom 0 text

/-- Every text can be cut into pieces, and in one way only. -/
theorem pieces_eq_iff : text.pieces = pieces ↔ text.IsCutInto pieces := by
  constructor
  · rintro rfl
    exact isCutInto_pieces text
  · intro hcut
    induction hcut with
    | nil => rfl
    | placeholder hname _ ih =>
        rw [pieces_placeholder (hname.placeholder?_eq _), ih]
    | char hstart _ ih => rw [pieces_char (placeholder?_eq_none_iff.mpr hstart), ih]

theorem IsCutInto.of_not_hasPlaceholder (hnone : ¬ text.HasPlaceholder) :
    text.IsCutInto (text.map .char) := by
  induction text with
  | nil => exact .nil
  | cons c text ih =>
      rw [hasPlaceholder_cons_iff, not_or] at hnone
      exact .char hnone.1 (ih hnone.2)

end Text

end Gherkin
