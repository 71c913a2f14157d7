import Gherkin.Text.Blank

/-!
# Keywords and what they open

A keyword of a feature document either opens a construct or a step.  Steps have
five keywords of their own, two of which, *And* and *But*, only continue: what
such a step is depends on the step before it, and a continuation that has no step
before it counts as *Given*.
-/

namespace Gherkin

/-- The keyword that opens a step. -/
inductive StepKeyword where
  | given
  | when
  | «then»
  | and
  | but
deriving DecidableEq, Repr

namespace StepKeyword

/-- The English word for the keyword. -/
def name : StepKeyword → String
  | given => "Given"
  | when => "When"
  | «then» => "Then"
  | and => "And"
  | but => "But"

/-- And and But continue the step before them. -/
def isConjunction : StepKeyword → Bool
  | and | but => true
  | _ => false

/-- The kind of step that the keyword stands for behind a step of the kind
`previous?`, and the kind that the step after it sees.  Continuations leave no
trace, so a run of them resolves to one kind. -/
def resolve (keyword : StepKeyword) (previous? : Option StepKeyword) :
    StepKeyword × Option StepKeyword :=
  if keyword.isConjunction then
    (previous?.getD given, previous?)
  else
    (keyword, some keyword)

/-- The kinds that a sequence of keywords resolves to. -/
def resolveAll (previous? : Option StepKeyword) : List StepKeyword → List StepKeyword
  | [] => []
  | keyword :: keywords =>
      let (kind, next?) := keyword.resolve previous?
      kind :: resolveAll next? keywords

end StepKeyword

/-- What a keyword opens. -/
inductive Role where
  | feature
  | background
  | scenario
  | outline
  | examples
  | step (keyword : StepKeyword)
deriving DecidableEq, Repr

namespace Role

/-- Every role but that of a step is structural: its keyword is followed by a
colon. -/
def isStructural : Role → Bool
  | step _ => false
  | _ => true

/-- The name of the role, which for a step is that of its keyword. -/
def name : Role → String
  | feature => "Feature"
  | background => "Background"
  | scenario => "Scenario"
  | outline => "Outline"
  | examples => "Examples"
  | step keyword => keyword.name

end Role

end Gherkin
