import Gherkin.Text.Lines
import Mathlib.Data.List.Induction

/-!
# Joined lines

A description grows by one line at a time.  As long as no line is empty this is the
same as joining all of its lines at once, so a description says which lines it was
made of.
-/

namespace Gherkin.Text

variable {lines : List Text}

@[simp]
theorem joinLines_singleton (line : Text) : joinLines [line] = line :=
  List.intercalate_singleton

theorem joinLines_cons_cons (line next : Text) (lines : List Text) :
    joinLines (line :: next :: lines) = line ++ '\n' :: joinLines (next :: lines) := by
  rw [joinLines, List.intercalate_cons_cons, List.append_assoc]
  rfl

theorem joinLines_concat (hlines : lines ≠ []) (line : Text) :
    joinLines (lines ++ [line]) = joinLines lines ++ '\n' :: line := by
  induction lines with
  | nil => exact absurd rfl hlines
  | cons first lines ih =>
      cases lines with
      | nil => simp [joinLines_cons_cons]
      | cons second lines =>
          have hrest := ih (List.cons_ne_nil second lines)
          rw [List.cons_append] at hrest ⊢
          rw [List.cons_append, joinLines_cons_cons, joinLines_cons_cons, hrest]
          simp

/-- Only line feeds are put between joined lines. -/
theorem joinLines_subset {source : Text} (hlineFeed : '\n' ∈ source)
    (hlines : ∀ line ∈ lines, line ⊆ source) : joinLines lines ⊆ source := by
  induction lines using List.reverseRecOn with
  | nil => exact List.nil_subset source
  | append_singleton lines line ih =>
      obtain ⟨hlines, hline⟩ := List.forall_mem_append.mp hlines
      have hlast := hline line (List.mem_singleton.mpr rfl)
      by_cases hne : lines = []
      · rw [hne, List.nil_append, joinLines_singleton]
        exact hlast
      · rw [joinLines_concat hne]
        exact List.append_subset.mpr
          ⟨ih hlines, List.cons_subset.mpr ⟨hlineFeed, hlast⟩⟩

/-- Lines that are not empty leave a trace. -/
theorem joinLines_ne_nil (hlines : lines ≠ []) (hline : ∀ line ∈ lines, line ≠ []) :
    joinLines lines ≠ [] := by
  cases lines with
  | nil => exact absurd rfl hlines
  | cons first lines =>
      cases lines with
      | nil =>
          rw [joinLines_singleton]
          exact hline first List.mem_cons_self
      | cons second lines =>
          rw [joinLines_cons_cons]
          simp

/-- Adding a line to joined lines joins it to them. -/
theorem addLine_joinLines (hlines : ∀ line ∈ lines, line ≠ []) (line : Text) :
    (joinLines lines).addLine line = joinLines (lines ++ [line]) := by
  by_cases hne : lines = []
  · rw [hne, List.nil_append, joinLines_singleton]
    rfl
  · have hempty : (joinLines lines).isEmpty = false := by
      rw [List.isEmpty_eq_false_iff]
      exact joinLines_ne_nil hne hlines
    rw [addLine, hempty, if_neg Bool.false_ne_true, joinLines_concat hne]

end Gherkin.Text
