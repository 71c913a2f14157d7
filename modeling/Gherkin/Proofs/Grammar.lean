import Mathlib.Computability.Language
import Mathlib.Order.CompletePartialOrder
import Gherkin.Proofs.Token.Shape

/-!
# The grammar of a document

Which lines may follow which is a matter of their kinds alone, so the grammar is
a language over kinds of lines.  It is built from single lines by concatenation,
choice and repetition.  Blank lines, comments and tags may follow every line but
those inside a doc string; they are part of the line they follow, and the
document itself may start with them.

A table is a repetition of rows of one width.  The rows of a step are cut into
tables by its doc strings, so each of these may have a width of its own.
-/

namespace Gherkin.Grammar

open LineKind
open scoped Computability

/-! ## The language -/

/-- A single line of the given shape. -/
def line (shape : LineKind → Prop) : Language LineKind :=
  {word | ∃ kind, shape kind ∧ word = [kind]}

/-- Any number of blank lines, comments and tags. -/
def gap : Language LineKind :=
  (line IsAnnotation)∗

/-- A line of the given shape and the gap behind it. -/
def spaced (shape : LineKind → Prop) : Language LineKind :=
  line shape * gap

def texts : Language LineKind :=
  (spaced IsText)∗

/-- Rows that all have `width` cells. -/
def tableOf (width : ℕ) : Language LineKind :=
  (spaced (IsRow width))∗

/-- Rows that all have the same number of cells. -/
def table : Language LineKind :=
  ⨆ width, tableOf width

/-- Content between two fences of one kind.  There is no gap inside. -/
def docString : Language LineKind :=
  ⨆ fence, line (IsFence fence) * ((line IsContent)∗ * spaced (IsFence fence))

/-- Doc strings, each with the table behind it. -/
def docTables : Language LineKind :=
  (docString * table)∗

/-- The rows and doc strings of a step, in any order. -/
def stepBody : Language LineKind :=
  table * docTables

def steps : Language LineKind :=
  (spaced IsStep * stepBody)∗

/-- The groups of examples of an outline. -/
def groups : Language LineKind :=
  (spaced (IsKeyword .examples) * (texts * table))∗

def background : Language LineKind :=
  spaced (IsKeyword .background) * (texts * steps)

def scenario : Language LineKind :=
  spaced (IsKeyword .scenario) * (texts * steps)

def outline : Language LineKind :=
  spaced (IsKeyword .outline) * (texts * (steps * groups))

def containers : Language LineKind :=
  (scenario + outline)∗

/-- What follows the feature line and its gap. -/
def featureBody : Language LineKind :=
  texts * ((1 + background) * containers)

/-- Whole documents. -/
def document : Language LineKind :=
  gap * ((spaced IsPreamble)∗ * (spaced (IsKeyword .feature) * featureBody))

/-! ## Taking the first line off a word -/

variable {shape : LineKind → Prop} {kind : LineKind} {word : List LineKind}
variable {left right rest : Language LineKind}

theorem nil_mem_mul : [] ∈ left * right ↔ [] ∈ left ∧ [] ∈ right := by
  simp [Language.mem_mul]

theorem nil_notMem_spaced_mul : [] ∉ spaced shape * rest := by
  rw [nil_mem_mul, spaced, nil_mem_mul]
  rintro ⟨⟨⟨kind, -, hword⟩, -⟩, -⟩
  exact List.cons_ne_nil _ _ hword.symm

/-- What may be empty may be left out. -/
theorem mem_mul_of_nil_mem (hnil : [] ∈ left) (hword : word ∈ right) :
    word ∈ left * right :=
  ⟨[], hnil, word, hword, rfl⟩

theorem nil_mem_gap : [] ∈ gap := Language.nil_mem_kstar _

theorem nil_mem_texts : [] ∈ texts := Language.nil_mem_kstar _

theorem nil_mem_tableOf {width : ℕ} : [] ∈ tableOf width := Language.nil_mem_kstar _

theorem nil_mem_table : [] ∈ table := Language.mem_iSup.mpr ⟨0, nil_mem_tableOf⟩

theorem nil_mem_docTables : [] ∈ docTables := Language.nil_mem_kstar _

theorem nil_mem_stepBody : [] ∈ stepBody :=
  nil_mem_mul.mpr ⟨nil_mem_table, nil_mem_docTables⟩

theorem nil_mem_steps : [] ∈ steps := Language.nil_mem_kstar _

theorem nil_mem_groups : [] ∈ groups := Language.nil_mem_kstar _

theorem nil_mem_containers : [] ∈ containers := Language.nil_mem_kstar _

theorem cons_mem_line_mul :
    kind :: word ∈ line shape * rest ↔ shape kind ∧ word ∈ rest := by
  constructor
  · rintro ⟨_, ⟨head, hhead, rfl⟩, tail, htail, heq⟩
    obtain ⟨rfl, rfl⟩ := List.cons.inj heq
    exact ⟨hhead, htail⟩
  · rintro ⟨hkind, hword⟩
    exact ⟨[kind], ⟨kind, hkind, rfl⟩, word, hword, rfl⟩

theorem cons_mem_spaced_mul :
    kind :: word ∈ spaced shape * rest ↔ shape kind ∧ word ∈ gap * rest := by
  rw [spaced, mul_assoc, cons_mem_line_mul]

/-- A repetition is passed over or goes through one more round. -/
theorem cons_mem_kstar_mul :
    kind :: word ∈ left∗ * rest ↔
      kind :: word ∈ left * (left∗ * rest) ∨ kind :: word ∈ rest := by
  conv_lhs => rw [← Language.one_add_self_mul_kstar_eq_kstar]
  rw [add_mul, one_mul, Language.mem_add, mul_assoc, or_comm]

theorem cons_mem_gap_mul :
    kind :: word ∈ gap * rest ↔
      IsAnnotation kind ∧ word ∈ gap * rest ∨ kind :: word ∈ rest := by
  rw [gap, cons_mem_kstar_mul, cons_mem_line_mul]

theorem cons_mem_spaced_kstar_mul :
    kind :: word ∈ (spaced shape)∗ * rest ↔
      shape kind ∧ word ∈ gap * ((spaced shape)∗ * rest) ∨ kind :: word ∈ rest := by
  rw [cons_mem_kstar_mul, cons_mem_spaced_mul]

theorem cons_mem_texts_mul :
    kind :: word ∈ texts * rest ↔
      IsText kind ∧ word ∈ gap * (texts * rest) ∨ kind :: word ∈ rest :=
  cons_mem_spaced_kstar_mul

theorem cons_mem_tableOf_mul {width : ℕ} :
    kind :: word ∈ tableOf width * rest ↔
      IsRow width kind ∧ word ∈ gap * (tableOf width * rest) ∨ kind :: word ∈ rest :=
  cons_mem_spaced_kstar_mul

/-- The first row fixes the width of the table. -/
theorem cons_mem_table_mul :
    kind :: word ∈ table * rest ↔
      (∃ width, IsRow width kind ∧ word ∈ gap * (tableOf width * rest)) ∨
        kind :: word ∈ rest := by
  rw [table, Language.iSup_mul, Language.mem_iSup]
  simp only [cons_mem_tableOf_mul, exists_or, exists_const]

/-- A doc string starts with a fence, which fixes the one that closes it. -/
theorem cons_mem_docString_mul :
    kind :: word ∈ docString * rest ↔
      ∃ fence, IsFence fence kind ∧
        word ∈ (line IsContent)∗ * (spaced (IsFence fence) * rest) := by
  simp only [docString, Language.iSup_mul, Language.mem_iSup, mul_assoc,
    cons_mem_line_mul]

theorem cons_mem_docTables_mul :
    kind :: word ∈ docTables * rest ↔
      (∃ fence, IsFence fence kind ∧
        word ∈ (line IsContent)∗ * (spaced (IsFence fence) * (stepBody * rest))) ∨
        kind :: word ∈ rest := by
  rw [docTables, cons_mem_kstar_mul, mul_assoc, cons_mem_docString_mul,
    ← mul_assoc table,
    ← docTables, ← stepBody]

theorem cons_mem_stepBody_mul :
    kind :: word ∈ stepBody * rest ↔
      (∃ width, IsRow width kind ∧
        word ∈ gap * (tableOf width * (docTables * rest))) ∨
        kind :: word ∈ docTables * rest := by
  rw [stepBody, mul_assoc, cons_mem_table_mul]

theorem cons_mem_steps_mul :
    kind :: word ∈ steps * rest ↔
      IsStep kind ∧ word ∈ gap * (stepBody * (steps * rest)) ∨ kind :: word ∈ rest := by
  rw [steps, cons_mem_kstar_mul, mul_assoc, cons_mem_spaced_mul]

theorem cons_mem_groups_mul :
    kind :: word ∈ groups * rest ↔
      IsKeyword .examples kind ∧ word ∈ gap * (texts * (table * (groups * rest))) ∨
        kind :: word ∈ rest := by
  rw [groups, cons_mem_kstar_mul, mul_assoc, cons_mem_spaced_mul, mul_assoc]

theorem cons_mem_containers :
    kind :: word ∈ containers ↔
      IsKeyword .scenario kind ∧ word ∈ gap * (texts * (steps * containers)) ∨
        IsKeyword .outline kind ∧
          word ∈ gap * (texts * (steps * (groups * containers))) := by
  rw [← mul_one containers, containers, cons_mem_kstar_mul, ← containers, mul_one,
    add_mul, Language.mem_add, scenario, outline]
  simp only [mul_assoc, cons_mem_spaced_mul, Language.mem_one, reduceCtorEq, or_false]

/-- Behind the texts of a feature there may be a background. -/
theorem cons_mem_background_mul :
    kind :: word ∈ (1 + background) * rest ↔
      IsKeyword .background kind ∧ word ∈ gap * (texts * (steps * rest)) ∨
        kind :: word ∈ rest := by
  rw [add_mul, one_mul, Language.mem_add, background, mul_assoc, cons_mem_spaced_mul,
    mul_assoc, or_comm]

end Gherkin.Grammar
