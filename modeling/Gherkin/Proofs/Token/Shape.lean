import Gherkin.Row.Cells
import Gherkin.Token

/-!
# Shapes of lines

Statements about whole documents speak of lines by their shape: which construct
a keyword opens, whether a line annotates what follows it, or how wide a row is.
A shape looks at the kind of one line and at nothing around it.
-/

namespace Gherkin.LineKind

/-- Blank lines, comments and tags stand anywhere outside doc strings. -/
def IsAnnotation : LineKind → Prop
  | blank | comment _ | tags _ => True
  | _ => False

/-- Lines that are passed over in front of the feature. -/
def IsPreamble : LineKind → Prop
  | tableRow _ | fence _ | content _ => True
  | _ => False

def IsText : LineKind → Prop
  | text _ => True
  | _ => False

def IsContent : LineKind → Prop
  | content _ => True
  | _ => False

def IsFence (shape : Fence) : LineKind → Prop
  | fence line => line.fence = shape
  | _ => False

def IsKeyword (role : Role) : LineKind → Prop
  | keyword opening => opening.role = role
  | _ => False

def IsStep : LineKind → Prop
  | keyword opening => ∃ step, opening.role = .step step
  | _ => False

/-- A line that decodes to a row of `width` cells. -/
def IsRow (width : Nat) : LineKind → Prop
  | tableRow raw => ∃ cells, Cells.decode raw = .ok cells ∧ cells.length = width
  | _ => False

theorem isText_iff {kind : LineKind} : kind.IsText ↔ ∃ said, kind = text said := by
  cases kind <;> simp [IsText]

theorem isContent_iff {kind : LineKind} : kind.IsContent ↔
    ∃ line, kind = content line := by
  cases kind <;> simp [IsContent]

theorem isFence_iff {kind : LineKind} {shape : Fence} :
    kind.IsFence shape ↔ ∃ line, kind = fence line ∧ line.fence = shape := by
  cases kind <;> simp [IsFence]

theorem isKeyword_iff {kind : LineKind} {role : Role} :
    kind.IsKeyword role ↔ ∃ opening, kind = keyword opening ∧ opening.role = role := by
  cases kind <;> simp [IsKeyword]

theorem isStep_iff {kind : LineKind} :
    kind.IsStep ↔
      ∃ opening step, kind = keyword opening ∧ opening.role = .step step := by
  cases kind <;> simp [IsStep]

theorem isRow_iff {kind : LineKind} {width : Nat} :
    kind.IsRow width ↔
      ∃ raw cells, kind = tableRow raw ∧ Cells.decode raw = .ok cells ∧
        cells.length = width := by
  cases kind <;> simp [IsRow]

theorem isRow_of_decode {raw : Text} {cells : List Text}
    (hcells : Cells.decode raw = .ok cells) : (tableRow raw).IsRow cells.length :=
  ⟨cells, hcells, rfl⟩

theorem isFence_self {line : FenceLine} : (fence line).IsFence line.fence := rfl

/-- What the line adds to the comments that wait for a node. -/
def comments : LineKind → List Text
  | comment said => [said]
  | _ => []

/-- What the line adds to the tags that wait for a node. -/
def tagsOf : LineKind → List Text
  | tags names => names
  | _ => []

end Gherkin.LineKind
