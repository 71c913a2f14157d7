import Gherkin.Text.Blank

/-!
# Replacing every occurrence

Occurrences are taken from the left and do not overlap: once one is found, the
search goes on behind it, and the text put in its place is not searched again.
The scan walks over the text one character at a time and counts down the
characters of an occurrence that are still to be passed over, so it is plain
recursion on the text.
-/

namespace Gherkin.Text

/-- Passes over `skip` characters and replaces in what is behind them. -/
def replaceFrom (pattern replacement : Text) : Nat → Text → Text
  | _, [] => []
  | skip + 1, _ :: rest => replaceFrom pattern replacement skip rest
  | 0, c :: rest =>
      if pattern.isPrefixOf (c :: rest) then
        replacement ++ replaceFrom pattern replacement (pattern.length - 1) rest
      else
        c :: replaceFrom pattern replacement 0 rest

/-- The text with every occurrence of a nonempty `pattern` replaced, from the left
and without overlap. -/
def replaceAll (text pattern replacement : Text) : Text :=
  replaceFrom pattern replacement 0 text

theorem replaceFrom_eq_replaceAll_drop (pattern replacement : Text) (skip : Nat)
    (text : Text) :
    replaceFrom pattern replacement skip text =
      replaceAll (text.drop skip) pattern replacement := by
  induction text generalizing skip with
  | nil => simp [replaceAll, replaceFrom]
  | cons c rest ih =>
      cases skip with
      | zero => rfl
      | succ skip => simpa [replaceFrom] using ih skip

@[simp]
theorem replaceAll_nil (pattern replacement : Text) :
    replaceAll [] pattern replacement = [] := rfl

/-- An occurrence at the front is replaced and the search goes on behind it. -/
theorem replaceAll_append {pattern : Text} (hne : pattern ≠ [])
    (replacement rest : Text) :
    replaceAll (pattern ++ rest) pattern replacement =
      replacement ++ replaceAll rest pattern replacement := by
  obtain ⟨c, tail, rfl⟩ := List.exists_cons_of_ne_nil hne
  have hfront : (c :: tail).isPrefixOf (c :: (tail ++ rest)) = true := by
    rw [List.isPrefixOf_iff_prefix]
    exact ⟨rest, rfl⟩
  rw [List.cons_append, replaceAll, replaceFrom, if_pos hfront,
    replaceFrom_eq_replaceAll_drop]
  simp

/-- A character that starts no occurrence stays. -/
theorem replaceAll_cons {pattern : Text} {c : Char} {rest : Text}
    (hfront : pattern.isPrefixOf (c :: rest) = false) (replacement : Text) :
    replaceAll (c :: rest) pattern replacement =
      c :: replaceAll rest pattern replacement := by
  simp [replaceAll, replaceFrom, hfront]

end Gherkin.Text
