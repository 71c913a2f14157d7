import Gherkin.Proofs.Text.Trimmed
import Gherkin.Fence
import Mathlib.Data.List.Infix

/-!
# Escaped fences

Escaping the fences of a content line is not undone by unescaping in general: a line
that was written with a backslash before each mark of a fence loses them.  But such
a line is never the content of a doc string.  Unescaping leaves an escaped fence
standing only where its last mark begins a fence, and there escaping breaks it up.
-/

namespace Gherkin

/-- A character that is put in stands for a pattern that is there. -/
theorem Text.mem_of_mem_replaceAll {c : Char} {text pattern replacement : Text}
    (hc : c ∈ text.replaceAll pattern replacement) :
    (pattern <:+: text ∧ c ∈ replacement) ∨ c ∈ text := by
  suffices hfrom : ∀ skip, c ∈ replaceFrom pattern replacement skip text →
      (pattern <:+: text ∧ c ∈ replacement) ∨ c ∈ text from hfrom 0 hc
  intro skip
  clear hc
  induction text generalizing skip with
  | nil => exact nofun
  | cons first text ih =>
      have hback (skip : Nat) (hc : c ∈ replaceFrom pattern replacement skip text) :
          (pattern <:+: first :: text ∧ c ∈ replacement) ∨ c ∈ first :: text :=
        (ih skip hc).imp (And.imp_left (·.trans (List.suffix_cons first text).isInfix))
          (List.mem_cons_of_mem first)
      intro hc
      rcases skip with _ | skip
      · rw [replaceFrom] at hc
        split at hc
        · next hfront =>
            rcases List.mem_append.mp hc with hc | hc
            · exact .inl ⟨(List.isPrefixOf_iff_prefix.mp hfront).isInfix, hc⟩
            · exact hback _ hc
        · rcases List.mem_cons.mp hc with rfl | hc
          · exact .inr List.mem_cons_self
          · exact hback _ hc
      · exact hback _ hc

/-- A text is read from the left, by occurrences of a pattern where it has them and by
single characters elsewhere. -/
theorem Text.pattern_induction {motive : Text → Prop} {pattern : Text}
    (hpattern : pattern ≠ [])
    (nil : motive [])
    (occurrence : ∀ rest, motive rest → motive (pattern ++ rest))
    (other : ∀ c rest, ¬ pattern <+: c :: rest → motive rest → motive (c :: rest))
    (text : Text) : motive text := by
  by_cases hfront : pattern <+: text
  · obtain ⟨rest, hrest⟩ := hfront
    have hlength : rest.length < text.length := by
      rw [← hrest, List.length_append]
      exact Nat.lt_add_of_pos_left (List.length_pos_iff.mpr hpattern)
    rw [← hrest]
    exact occurrence rest (pattern_induction hpattern nil occurrence other rest)
  · match text with
    | [] => exact nil
    | c :: rest =>
        exact other c rest hfront (pattern_induction hpattern nil occurrence other rest)
termination_by text.length

namespace Fence

variable {fence : Fence} {c : Char} {line rest : Text}

theorem mark_ne_backslash (fence : Fence) : fence.mark ≠ '\\' := by
  cases fence <;> decide

theorem text_ne_nil (fence : Fence) : fence.text ≠ [] :=
  List.cons_ne_nil _ _

theorem escaped_ne_nil (fence : Fence) : fence.escaped ≠ [] :=
  List.cons_ne_nil _ _

/-! ## Escaping and unescaping from the left -/

theorem escape_append (fence : Fence) (rest : Text) :
    fence.escape (fence.text ++ rest) = fence.escaped ++ fence.escape rest :=
  Text.replaceAll_append fence.text_ne_nil _ rest

theorem escape_cons (hfront : ¬ fence.text <+: c :: rest) :
    fence.escape (c :: rest) = c :: fence.escape rest :=
  Text.replaceAll_cons (by rwa [Bool.eq_false_iff, ne_eq, List.isPrefixOf_iff_prefix]) _

theorem unescape_append (fence : Fence) (rest : Text) :
    fence.unescape (fence.escaped ++ rest) = fence.text ++ fence.unescape rest :=
  Text.replaceAll_append fence.escaped_ne_nil _ rest

theorem unescape_cons (hfront : ¬ fence.escaped <+: c :: rest) :
    fence.unescape (c :: rest) = c :: fence.unescape rest :=
  Text.replaceAll_cons (by rwa [Bool.eq_false_iff, ne_eq, List.isPrefixOf_iff_prefix]) _

/-- An escaped line starts with a mark only if the line does, and then not with a
fence. -/
theorem escape_eq_mark_cons (h : fence.escape line = fence.mark :: rest) :
    ∃ tail, line = fence.mark :: tail ∧ fence.escape tail = rest ∧
      ¬ fence.text <+: line := by
  by_cases hfront : fence.text <+: line
  · obtain ⟨tail, rfl⟩ := hfront
    rw [escape_append] at h
    exact absurd (List.cons.inj h).1.symm fence.mark_ne_backslash
  · cases line with
    | nil => cases h
    | cons first tail =>
        rw [escape_cons hfront] at h
        obtain ⟨rfl, hrest⟩ := List.cons.inj h
        exact ⟨tail, rfl, hrest, hfront⟩

theorem escape_eq_backslash_cons (hfront : ¬ fence.text <+: line)
    (h : fence.escape line = '\\' :: rest) :
    ∃ tail, line = '\\' :: tail ∧ fence.escape tail = rest := by
  cases line with
  | nil => cases h
  | cons first tail =>
      rw [escape_cons hfront] at h
      obtain ⟨rfl, hrest⟩ := List.cons.inj h
      exact ⟨tail, rfl, hrest⟩

theorem not_isPrefix_of_not_isPrefix_mark_cons
    (hfront : ¬ fence.text <+: fence.mark :: rest) :
    ¬ fence.text <+: rest := by
  rintro ⟨tail, rfl⟩
  exact hfront ⟨fence.mark :: tail, rfl⟩

/-- Where escaping puts no escaped fence, it leaves none but those of the line that do
not run into a fence. -/
theorem isPrefix_of_isPrefix_escape (hfront : ¬ fence.text <+: c :: line)
    (hescaped : fence.escaped <+: c :: fence.escape line) :
    fence.escaped <+: c :: line ∧ ¬ fence.text <+: (c :: line).drop 5 := by
  obtain ⟨rest, hrest⟩ := hescaped
  obtain ⟨rfl, hline⟩ := List.cons.inj hrest
  obtain ⟨tail₁, rfl, hline₁, hfront₁⟩ := escape_eq_mark_cons hline.symm
  obtain ⟨tail₂, rfl, hline₂⟩ :=
    escape_eq_backslash_cons (not_isPrefix_of_not_isPrefix_mark_cons hfront₁) hline₁
  obtain ⟨tail₃, rfl, hline₃, hfront₃⟩ := escape_eq_mark_cons hline₂
  obtain ⟨tail₄, rfl, hline₄⟩ :=
    escape_eq_backslash_cons (not_isPrefix_of_not_isPrefix_mark_cons hfront₃) hline₃
  obtain ⟨tail₅, rfl, -, hfront₅⟩ := escape_eq_mark_cons hline₄
  exact ⟨⟨tail₅, rfl⟩, hfront₅⟩

/-- Every escaped fence of the line runs into a fence. -/
def Unescaped (fence : Fence) (line : Text) : Prop :=
  ∀ back, back <:+ line → fence.escaped <+: back → fence.text <+: back.drop 5

theorem unescaped_of_not_isInfix (hline : ¬ fence.escaped <:+: line) :
    fence.Unescaped line :=
  fun _ hback hescaped => absurd (hescaped.isInfix.trans hback.isInfix) hline

theorem Unescaped.of_isSuffix {back : Text} (hline : fence.Unescaped line)
    (hback : back <:+ line) : fence.Unescaped back :=
  fun _ hlast => hline _ (hlast.trans hback)

/-- In an unescaped line no escaped fence stands in front of what is no fence. -/
theorem Unescaped.not_isPrefix (hline : fence.Unescaped (c :: line))
    (hfront : ¬ fence.text <+: c :: line) :
    ¬ fence.escaped <+: c :: fence.escape line := by
  intro hescaped
  obtain ⟨hfence, hrest⟩ := isPrefix_of_isPrefix_escape hfront hescaped
  exact hrest (hline _ (List.suffix_refl _) hfence)

/-- Unescaping brings back what escaping made of an unescaped line. -/
theorem unescape_escape (hline : fence.Unescaped line) :
    fence.unescape (fence.escape line) = line := by
  induction line using Text.pattern_induction fence.text_ne_nil with
  | nil => rfl
  | occurrence rest ih =>
      have hrest := hline.of_isSuffix (List.suffix_append fence.text rest)
      calc
        fence.unescape (fence.escape (fence.text ++ rest)) =
            fence.unescape (fence.escaped ++ fence.escape rest) := by
          rw [escape_append]
        _ = fence.text ++ fence.unescape (fence.escape rest) :=
          unescape_append fence (fence.escape rest)
        _ = fence.text ++ rest := by
          rw [ih hrest]
  | other c rest hfront ih =>
      have hrest := hline.of_isSuffix (List.suffix_cons c rest)
      calc
        fence.unescape (fence.escape (c :: rest)) =
            fence.unescape (c :: fence.escape rest) := by
          rw [escape_cons hfront]
        _ = c :: fence.unescape (fence.escape rest) :=
          unescape_cons (hline.not_isPrefix hfront)
        _ = c :: rest := by
          rw [ih hrest]

/-! ## Unescaping leaves an unescaped line -/

theorem unescape_eq_mark_cons (h : fence.unescape line = fence.mark :: rest) :
    (∃ tail, line = fence.escaped ++ tail ∧
        rest = fence.mark :: fence.mark :: fence.unescape tail) ∨
      ∃ tail, line = fence.mark :: tail ∧ fence.unescape tail = rest := by
  by_cases hfront : fence.escaped <+: line
  · obtain ⟨tail, rfl⟩ := hfront
    rw [unescape_append] at h
    exact .inl ⟨tail, rfl, (List.cons.inj h).2.symm⟩
  · cases line with
    | nil => cases h
    | cons first tail =>
        rw [unescape_cons hfront] at h
        obtain ⟨rfl, hrest⟩ := List.cons.inj h
        exact .inr ⟨tail, rfl, hrest⟩

theorem unescape_eq_mark_backslash_cons
    (h : fence.unescape line = fence.mark :: '\\' :: rest) :
    ∃ tail, line = fence.mark :: '\\' :: tail ∧ fence.unescape tail = rest := by
  obtain ⟨tail, -, hrest⟩ | ⟨tail, rfl, htail⟩ := unescape_eq_mark_cons h
  · exact absurd (List.cons.inj hrest).1.symm fence.mark_ne_backslash
  · by_cases hfront : fence.escaped <+: tail
    · obtain ⟨back, rfl⟩ := hfront
      rw [unescape_append] at htail
      exact absurd (List.cons.inj htail).1 fence.mark_ne_backslash
    · cases tail with
      | nil => cases htail
      | cons first tail =>
          rw [unescape_cons hfront] at htail
          obtain ⟨rfl, hrest⟩ := List.cons.inj htail
          exact ⟨tail, rfl, hrest⟩

/-- A new escaped fence comes about only in front of what becomes a fence. -/
theorem isPrefix_drop_of_isPrefix_unescape (hfront : ¬ fence.escaped <+: c :: line)
    (hescaped : fence.escaped <+: c :: fence.unescape line) :
    fence.text <+: (c :: fence.unescape line).drop 5 := by
  obtain ⟨rest, hrest⟩ := hescaped
  obtain ⟨rfl, hline⟩ := List.cons.inj hrest
  obtain ⟨tail₁, rfl, hline₁⟩ := unescape_eq_mark_backslash_cons hline.symm
  obtain ⟨tail₂, rfl, hline₂⟩ := unescape_eq_mark_backslash_cons hline₁
  obtain ⟨tail₃, rfl, hback⟩ | ⟨tail₃, rfl, -⟩ := unescape_eq_mark_cons hline₂
  · refine ⟨fence.unescape tail₃, ?_⟩
    rw [← hline]
    exact congrArg (fence.mark :: ·) hback.symm
  · exact absurd ⟨tail₃, rfl⟩ hfront

/-- What unescaping yields is unescaped. -/
theorem unescaped_unescape (fence : Fence) (line : Text) :
    fence.Unescaped (fence.unescape line) := by
  have hmark {back tail : Text} (hback : back = fence.mark :: tail)
      (hescaped : fence.escaped <+: back) : False := by
    obtain ⟨rest, rfl⟩ := hescaped
    exact fence.mark_ne_backslash (List.cons.inj hback).1.symm
  induction line using Text.pattern_induction fence.escaped_ne_nil with
  | nil =>
      intro back hback hescaped
      rw [List.suffix_nil.mp hback] at hescaped
      exact absurd (List.prefix_nil.mp hescaped) fence.escaped_ne_nil
  | occurrence rest ih =>
      rw [unescape_append]
      -- A suffix that reaches into the fence starts with a mark.
      intro back hback hescaped
      rcases List.suffix_cons_iff.mp hback with hback | hback
      · exact (hmark hback hescaped).elim
      rcases List.suffix_cons_iff.mp hback with hback | hback
      · exact (hmark hback hescaped).elim
      rcases List.suffix_cons_iff.mp hback with hback | hback
      · exact (hmark hback hescaped).elim
      exact ih back hback hescaped
  | other c rest hfront ih =>
      rw [unescape_cons hfront]
      intro back hback hescaped
      rcases List.suffix_cons_iff.mp hback with rfl | hback
      · exact isPrefix_drop_of_isPrefix_unescape hfront hescaped
      · exact ih back hback hescaped

/-! ## Escaped lines -/

/-- A line that escaping adds no backslash to has no fence in it. -/
theorem not_isInfix_of_not_mem_escape (hline : '\\' ∉ fence.escape line) :
    fence.escape line = line ∧ ¬ fence.text <:+: line := by
  induction line using Text.pattern_induction fence.text_ne_nil with
  | nil =>
      exact ⟨rfl, fun hinfix => absurd (List.infix_nil.mp hinfix) fence.text_ne_nil⟩
  | occurrence rest ih =>
      rw [escape_append] at hline
      exact absurd List.mem_cons_self hline
  | other c rest hfront ih =>
      rw [escape_cons hfront] at hline ⊢
      obtain ⟨hrest, hinfix⟩ := ih fun hmem => hline (List.mem_cons_of_mem c hmem)
      rw [hrest]
      refine ⟨rfl, fun hfence => ?_⟩
      rcases List.infix_cons_iff.mp hfence with hstart | hfence
      · exact hfront hstart
      · exact hinfix hfence

theorem isWhite_mark (fence : Fence) : isWhite fence.mark = false := by
  cases fence <;> decide

theorem mem_text_iff : c ∈ fence.text ↔ c = fence.mark := by
  simp [text]

/-- No content line closes its doc string once it is escaped. -/
theorem closing?_escape (fence : Fence) (line : Text) :
    FenceLine.closing? fence (fence.escape line) = none := by
  refine if_neg fun htrim => ?_
  obtain ⟨front, back, hpad, hfront, hback⟩ :=
    Text.exists_eq_trimWhile_pad isWhite (fence.escape line)
  rw [← Text.trim_eq_trimWhile, htrim] at hpad
  have hwhite : isWhite '\\' = false := by decide
  have hbackslash : '\\' ∉ fence.escape line := by
    intro hmem
    rw [hpad] at hmem
    rcases List.mem_append.mp hmem with hmem | hmem
    · rw [hfront _ hmem] at hwhite
      cases hwhite
    rcases List.mem_append.mp hmem with hmem | hmem
    · exact fence.mark_ne_backslash (mem_text_iff.mp hmem).symm
    · rw [hback _ hmem] at hwhite
      cases hwhite
  obtain ⟨heq, hfence⟩ := not_isInfix_of_not_mem_escape hbackslash
  exact hfence ⟨front, back, by rw [List.append_assoc, ← hpad, heq]⟩

/-- An escaped fence ends in the mark that the fence ends in. -/
theorem getLast?_escape (fence : Fence) (line : Text) :
    (fence.escape line).getLast? = line.getLast? := by
  induction line using Text.pattern_induction fence.text_ne_nil with
  | nil => rfl
  | occurrence rest ih =>
      rw [escape_append, List.getLast?_append, List.getLast?_append, ih]
      rfl
  | other c rest hfront ih =>
      rw [escape_cons hfront, List.getLast?_cons, List.getLast?_cons, ih]

/-- Escaping puts in no line feed. -/
theorem lineFeed_not_mem_escape (hline : '\n' ∉ line) : '\n' ∉ fence.escape line := by
  intro hmem
  rcases Text.mem_of_mem_replaceAll hmem with ⟨-, hmem⟩ | hmem
  · cases fence <;> exact absurd hmem (by decide)
  · exact hline hmem

/-- The marks of an escaped fence are those of the fence. -/
theorem unescape_subset (fence : Fence) (line : Text) : fence.unescape line ⊆ line := by
  have hmarks : fence.text ⊆ fence.escaped := by cases fence <;> decide
  intro c hc
  rcases Text.mem_of_mem_replaceAll hc with ⟨hescaped, hc⟩ | hc
  · exact hescaped.subset (hmarks hc)
  · exact hc

end Fence

end Gherkin
