import Gherkin.Parse
import Gherkin.Proofs.Assembly.Sound

/-!
# Parsed documents

A document that is read comes out of a run over all of its tokens that ends
outside doc strings with the feature open.  What the run ends with is the document,
up to the comments behind its last construct.
-/

namespace Gherkin

/-- The feature with the comments behind its last construct, if they are kept. -/
def Feature.settle (feature : Feature) (policy : TrailingComments)
    (comments : List Text) :
    Feature :=
  match policy with
  | .attach => { feature with trailingComments := comments }
  | .discard => feature

namespace Assembly

/-- What an assembly makes of what was scanned. -/
def read (assembly : Assembly) (scanned : Scan) : Except Diagnostic Feature :=
  match assembly.feedAll scanned.tokens with
  | .error diagnostic => .error diagnostic
  | .ok final =>
      match scanned.fault? with
      | some diagnostic => .error diagnostic
      | none => final.finish

theorem parse_eq_read (config : Config) (uri document : Text) :
    parse config uri document =
      (start uri config.trailingComments).read (scan config.keywords document) := rfl

theorem finish_eq_ok_iff {assembly : Assembly} {feature : Feature} :
    assembly.finish = .ok feature ↔
      assembly.phase.doc? = none ∧ ∃ closed, assembly.phase.feature? = some closed ∧
        feature = closed.settle assembly.policy assembly.pending.comments := by
  unfold finish
  rcases assembly.phase.doc? with _ | doc
  · rcases assembly.phase.feature? with _ | closed
    · simp
    · cases hpolicy : assembly.policy <;> simp [Feature.settle, eq_comm]
  · simp

end Assembly

/-- A document is read if its lines end outside doc strings and its tokens are
accepted to the end. -/
theorem parse_eq_ok_iff {config : Config} {uri document : Text} {feature : Feature} :
    parse config uri document = .ok feature ↔
      (scan config.keywords document).fault? = none ∧
        ∃ final, (Assembly.start uri config.trailingComments).feedAll
            (scan config.keywords document).tokens = .ok final ∧
          final.finish = .ok feature := by
  rw [Assembly.parse_eq_read, Assembly.read]
  rcases hrun : (Assembly.start uri config.trailingComments).feedAll
      (scan config.keywords document).tokens with diagnostic | final
  · simp
  · rcases hfault : (scan config.keywords document).fault? with _ | diagnostic <;> simp

/-- A document that is read has at most one background, in front of its scenarios. -/
theorem sorted_of_parse {config : Config} {uri document : Text} {feature : Feature}
    (hparse : parse config uri document = .ok feature) : feature.Sorted := by
  obtain ⟨-, final, hrun, hfinish⟩ := parse_eq_ok_iff.mp hparse
  obtain ⟨-, closed, hclosed, hfeature⟩ := Assembly.finish_eq_ok_iff.mp hfinish
  have hsorted := (Assembly.sound_of_feedAll hrun).sorted hclosed
  rw [hfeature]
  cases final.policy with
  | attach => exact ⟨hsorted.1, hsorted.2, hsorted.3⟩
  | discard => exact hsorted

/-- A small document with one construct of almost every kind. -/
def sampleDocument : Text :=
  ("# c\n@t\nFeature: F\nScenario Outline: S\nsaid\n"
    ++ "Given x\n| a |\n\x60\x60\x60\nq\n\x60\x60\x60\nExamples:\n| h |\n# end").toList

/-- What the small document says. -/
def sampleFeature : Feature where
  uri := "u".toList
  line := 3
  comments := ["c".toList]
  tags := ["t".toList]
  keyword := "Feature".toList
  name := "F".toList
  description := []
  backgrounds := []
  scenarios :=
    [{  uri := "u".toList, line := 4, comments := [], tags := []
        keyword := "Scenario Outline".toList, name := "S".toList
        description := "said".toList
        kind := .outline
          [{  uri := "u".toList, line := 11, comments := [], tags := []
              keyword := "Examples".toList, name := [], description := []
              rows := [⟨⟨"u".toList, 12, [], []⟩, ["h".toList]⟩] }]
        steps :=
          [{  uri := "u".toList, line := 6, comments := [], tags := []
              keyword := "Given".toList, kind := .given, name := "x".toList
              docs := [⟨8, .backticks, none, "q".toList⟩]
              rows := [⟨⟨"u".toList, 7, [], []⟩, ["a".toList]⟩] }] }]
  trailingComments := ["end".toList]

theorem parse_sampleDocument : parse {} "u".toList sampleDocument = .ok sampleFeature :=
  rfl

end Gherkin
