import Gherkin.Proofs.Rebuilding.Document
import Gherkin.Proofs.Written

/-!
# Written documents are read back

A document that was read can be written in its canonical form, and reading that form
gives the document again.  Only the line numbers change.  The lines of the written form
are read as the kinds that the tree determines, and these kinds build the tree again.
A table that a doc string interrupts is the one thing that the canonical form cannot
say: there the rows stand together, so they have to be equally wide.
-/

namespace Gherkin

/-- Renumbering the lines of tokens leaves their kinds. -/
theorem Token.map_mapLines_noLine (tokens : List Token) :
    tokens.map (Token.mapLines noLine) = (tokens.map Token.kind).map (Token.mk 0) := by
  rw [List.map_map]
  rfl

/-- What a run reaches without line numbers, a run with line numbers reaches up to
them. -/
theorem Assembly.exists_feedAll_of_reaches {uri : Text} {policy : TrailingComments}
    {tokens : List Token} {final : Assembly}
    (hreaches : (start uri policy).Reaches (tokens.map Token.kind) final) :
    ∃ last, (start uri policy).feedAll tokens = .ok last ∧
      last.mapLines noLine = final := by
  have hrun := (start uri policy).feedAll_mapLines noLine tokens
  rw [Token.map_mapLines_noLine,
    show (start uri policy).mapLines noLine = start uri policy from rfl,
    show (start uri policy).feedAll _ = .ok final from hreaches] at hrun
  cases hfed : (start uri policy).feedAll tokens with
  | error diagnostic =>
      rw [hfed] at hrun
      cases hrun
  | ok last =>
      rw [hfed] at hrun
      exact ⟨last, rfl, (Except.ok.inj hrun).symm⟩

/-- Reading the written form of a document gives the document up to its line numbers, if
the rows of each step are equally wide. -/
theorem parseFeature_render {uri document : Text} {feature : Feature}
    (hparse : parseFeature uri document = .ok feature)
    (hsteps : ∀ container ∈ feature.containers, ∀ step ∈ container.steps,
      ∀ first ∈ step.rows, ∀ row ∈ step.rows, first.cells.length = row.cells.length) :
    ∃ again, parseFeature uri feature.render = .ok again ∧
      again.eraseLines = feature.eraseLines := by
  have hheadings := isRebuilt_of_mem_headings hparse hsteps
  have htrailing := isComment_of_mem_trailingComments hparse
  obtain ⟨hkinds, hfault⟩ := Feature.scan_render
    (fun heading hheading => (hheadings heading hheading).toIsWritten) htrailing
  obtain ⟨final, hreaches, hfinish⟩ :=
    Feature.reaches (sorted_of_parse hparse) hheadings
  rw [← hkinds] at hreaches
  obtain ⟨last, hrun, rfl⟩ := Assembly.exists_feedAll_of_reaches hreaches
  obtain ⟨again, hagain, herased⟩ := (last.finish_mapLines_eq_ok_iff noLine).mp hfinish
  exact ⟨again, parse_eq_ok_iff.mpr ⟨hfault, last, hrun, hagain⟩, herased⟩

theorem parseFeature_render_sampleFeature :
    parseFeature "u".toList sampleDocument = .ok sampleFeature ∧
      (∀ container ∈ sampleFeature.containers, ∀ step ∈ container.steps,
        ∀ first ∈ step.rows, ∀ row ∈ step.rows,
          first.cells.length = row.cells.length) ∧
      ∃ again, parseFeature "u".toList sampleFeature.render = .ok again ∧
        again.eraseLines = sampleFeature.eraseLines :=
  ⟨parse_sampleDocument, by decide,
    parseFeature_render parse_sampleDocument (by decide)⟩

end Gherkin
