import Gherkin.Text.Blank

/-!
# Placeholders

A placeholder is a name between angle brackets.  The name is not empty, contains
no closing bracket and does not start with white space; anything else may be in
it, opening brackets and line feeds included.  Placeholders are found from the
left and do not overlap, so a text falls into pieces in exactly one way, and an
opening bracket that starts no placeholder is an ordinary character.
-/

namespace Gherkin

/-- A piece of a template: an ordinary character or a placeholder. -/
inductive Piece where
  | char (c : Char)
  | placeholder (name : Text)
deriving DecidableEq, Repr

namespace Piece

/-- The piece as written. -/
def text : Piece → Text
  | char c => [c]
  | placeholder name => '<' :: name ++ ['>']

end Piece

namespace Text

/-- The name of the placeholder that the text starts with. -/
def placeholder? : Text → Option Text
  | '<' :: rest =>
      let name := rest.takeWhile (· != '>')
      if name.length < rest.length && name.head?.any (!isWhite ·) then some name
      else none
  | _ => none

/-- The pieces behind the first `skip` characters. -/
def piecesFrom : Nat → Text → List Piece
  | _, [] => []
  | skip + 1, _ :: rest => piecesFrom skip rest
  | 0, c :: rest =>
      match placeholder? (c :: rest) with
      | some name => .placeholder name :: piecesFrom (name.length + 1) rest
      | none => .char c :: piecesFrom 0 rest

/-- The pieces of a template. -/
def pieces (template : Text) : List Piece :=
  piecesFrom 0 template

/-- The names of the placeholders of a template, from the left. -/
def placeholders (template : Text) : List Text :=
  template.pieces.filterMap fun
    | .placeholder name => some name
    | .char _ => none

theorem piecesFrom_eq_pieces_drop (skip : Nat) (text : Text) :
    piecesFrom skip text = pieces (text.drop skip) := by
  induction text generalizing skip with
  | nil => simp [pieces, piecesFrom]
  | cons c rest ih =>
      cases skip with
      | zero => rfl
      | succ skip => simpa [piecesFrom] using ih skip

@[simp]
theorem pieces_nil : pieces [] = [] := rfl

/-- The rest of a placeholder at the front is its name and the closing bracket. -/
theorem eq_of_placeholder?_eq_some {text name : Text}
    (hname : text.placeholder? = some name) :
    ∃ rest, text = '<' :: name ++ '>' :: rest := by
  unfold placeholder? at hname
  split at hname
  · next rest =>
      dsimp only at hname
      split at hname
      · next hcond =>
          injection hname with hname
          subst hname
          simp only [Bool.and_eq_true, decide_eq_true_eq] at hcond
          have hsplit : rest.takeWhile (· != '>') ++ rest.dropWhile (· != '>') = rest :=
            List.takeWhile_append_dropWhile
          have hne : rest.dropWhile (· != '>') ≠ [] := by
            intro hnil
            rw [hnil, List.append_nil] at hsplit
            rw [hsplit] at hcond
            omega
          obtain ⟨c, tail, hcons⟩ := List.exists_cons_of_ne_nil hne
          have hc : c = '>' := by
            have hhead := List.head?_dropWhile_not (· != '>') rest
            simpa [hcons] using hhead
          rw [hc] at hcons
          exact ⟨tail, by rw [List.cons_append, ← hcons, hsplit]⟩
      · simp at hname
  · simp at hname

/-- A placeholder at the front is a piece, and the pieces go on behind it. -/
theorem pieces_placeholder {name rest : Text}
    (hname : placeholder? ('<' :: name ++ '>' :: rest) = some name) :
    pieces ('<' :: name ++ '>' :: rest) = .placeholder name :: pieces rest := by
  rw [List.cons_append] at hname ⊢
  rw [pieces, piecesFrom, hname]
  simp [piecesFrom_eq_pieces_drop]

/-- A character that starts no placeholder is a piece of its own. -/
theorem pieces_char {c : Char} {rest : Text}
    (hnone : placeholder? (c :: rest) = none) :
    pieces (c :: rest) = .char c :: pieces rest := by
  rw [pieces, piecesFrom, hnone]
  rfl

end Text

end Gherkin
