import Gherkin.Proofs.Attachment
import Gherkin.Proofs.Passages
import Gherkin.Proofs.Rebuilding.Steps
import Gherkin.Proofs.Tables
import Gherkin.Proofs.Text.Lines

/-!
# Documents that were read can be written

Whatever a document holds was read from one of its lines, so it can be written as a
line again.  What a heading says comes from its passage, and the comments and tags of
its nodes come from the lines above them.
-/

namespace Gherkin

namespace Text

/-- Joined lines are taken apart again, unless they add up to nothing. -/
theorem mem_of_mem_linesOf_joinLines {lines : List Text}
    (hlines : ∀ line ∈ lines, '\n' ∉ line)
    {line : Text} (hline : line ∈ (joinLines lines).linesOf) : line ∈ lines := by
  unfold linesOf at hline
  split at hline
  · cases hline
  · next hempty =>
      have hne : lines ≠ [] := by
        rintro rfl
        exact hempty rfl
      have hsplit := List.splitOn_intercalate '\n' hlines hne
      rw [← hsplit]
      exact hline

end Text

/-- Every token of a document can be written. -/
theorem isWritten_of_mem_scan {document : Text} {token : Token}
    (htoken : token ∈ (scan .english document).tokens) : token.kind.IsWritten := by
  obtain ⟨line, hline, hkind⟩ := Scanner.exists_line_of_mem htoken
  have hlineFeed := Text.lineFeed_not_mem_of_mem_lines hline
  rcases hkind with hkind | ⟨shape, hkind⟩
  · rw [hkind]
    exact LineKind.isWritten_ofLine hlineFeed
  · rw [hkind]
    exact LineKind.isWritten_ofContentLine hlineFeed shape

/-! ## Passages -/

/-- Content is made of characters of its line. -/
theorem FenceLine.content_subset (opening : FenceLine) (line : Text) :
    opening.content line ⊆ line := by
  have hdedent : dedent opening.indent line ⊆ line := by
    unfold dedent
    split
    · exact List.drop_subset _ _
    · exact List.Subset.refl line
  exact List.Subset.trans (opening.fence.unescape_subset _) hdedent

theorem DocStrings.isWritten {tokens : List Token} {docs : List DocString}
    (hdocs : DocStrings tokens docs)
    (htokens : ∀ token ∈ tokens, token.kind.IsWritten) :
    ∀ doc ∈ docs, doc.IsWritten := by
  intro doc hdoc
  obtain ⟨opening, contents, hfrom⟩ := hdocs.exists_comesFrom hdoc
  have hlines : ∀ said ∈ contents.map opening.content,
      '\n' ∉ said ∧ opening.fence.Unescaped said := by
    intro said hsaid
    obtain ⟨content, hcontent, rfl⟩ := List.mem_map.mp hsaid
    obtain ⟨token, htoken, hkind⟩ := hfrom.content_mem content hcontent
    have hwritten := htokens token htoken
    rw [hkind] at hwritten
    exact ⟨fun hmem => hwritten (opening.content_subset content hmem),
      Fence.unescaped_unescape _ _⟩
  constructor
  · obtain ⟨token, htoken, hkind⟩ := hfrom.fence_mem
    have hwritten := htokens token htoken
    rw [hkind] at hwritten
    rw [hfrom.contentType?_eq]
    exact hwritten
  · rw [hfrom.content_eq, hfrom.fence_eq]
    intro said hsaid
    exact hlines said
      (Text.mem_of_mem_linesOf_joinLines
        (fun said hsaid => (hlines said hsaid).1) hsaid)

namespace Passage.Yields

variable {uri : Text} {passage : Passage} {heading : Heading}

theorem isSaid_description (hyields : passage.Yields uri heading)
    (hbody : ∀ token ∈ passage.body, token.kind.IsWritten) :
    ∀ line ∈ heading.description.linesOf, line.IsSaid := by
  have hlines : ∀ line ∈ passage.body.filterMap Token.text?, line.IsSaid := by
    intro line hline
    obtain ⟨token, htoken, hsaid⟩ := List.mem_filterMap.mp hline
    have hwritten := hbody token htoken
    rwa [Token.text?_eq_some.mp hsaid] at hwritten
  intro line hline
  rw [hyields.description_eq] at hline
  exact hlines line
    (Text.mem_of_mem_linesOf_joinLines
      (fun line hline => (hlines line hline).no_lineFeed) hline)

end Passage.Yields

/-- The keyword of a passage is that of one of the tokens. -/
theorem exists_keyword_of_mem_passages {tokens : List Token} {passage : Passage}
    (hpassage : passage ∈ passages tokens) :
    ∃ token ∈ tokens, token.kind = .keyword passage.opening := by
  have hmem : (passage.line, passage.opening) ∈ tokens.filterMap Token.keyword? := by
    rw [← map_opening_passages]
    exact List.mem_map_of_mem hpassage
  obtain ⟨token, htoken, hkeyword⟩ := List.mem_filterMap.mp hmem
  refine ⟨token, htoken, ?_⟩
  unfold Token.keyword? at hkeyword
  split at hkeyword
  · next hkind =>
      rw [hkind, (Prod.mk.inj (Option.some.inj hkeyword)).2]
  · cases hkeyword

/-! ## Nodes -/

theorem LineKind.IsWritten.isComment {kind : LineKind} (hkind : kind.IsWritten) :
    ∀ comment ∈ kind.comments, comment.IsComment := by
  cases kind <;> simp_all [IsWritten, comments]

theorem LineKind.IsWritten.isTag {kind : LineKind} (hkind : kind.IsWritten) :
    ∀ tag ∈ kind.tagsOf, tag.IsTag := by
  cases kind <;> simp_all [IsWritten, tagsOf]

theorem isComment_of_mem {tokens : List Token}
    (htokens : ∀ token ∈ tokens, token.kind.IsWritten) :
    ∀ comment ∈ tokens.flatMap (fun token => token.kind.comments),
    comment.IsComment := by
  intro comment hcomment
  obtain ⟨token, htoken, hcomment⟩ := List.mem_flatMap.mp hcomment
  exact (htokens token htoken).isComment comment hcomment

theorem Attachment.isWritten_node {uri : Text} {attachment : Attachment}
    (habove : ∀ token ∈ attachment.above, token.kind.IsWritten) :
    (attachment.node uri).IsWritten where
  comments := isComment_of_mem habove
  tags tag htag := by
    obtain ⟨token, htoken, htag⟩ := List.mem_flatMap.mp htag
    exact (habove token htoken).isTag tag htag

/-! ## Whole documents -/

/-- A document made up of tables has even headings only, if its steps have. -/
theorem Feature.isEven_of_mem_headings {feature : Feature}
    (htabular : ∀ heading ∈ feature.headings, heading.IsTabular)
    (hsteps : ∀ container ∈ feature.containers, ∀ step ∈ container.steps,
      step.heading.IsEven) :
    ∀ heading ∈ feature.headings, heading.IsEven := by
  intro heading hheading
  rcases List.mem_cons.mp hheading with rfl | hinner
  · exact nofun
  obtain ⟨container, hcontainer, hinner⟩ := List.mem_flatMap.mp hinner
  rcases List.mem_cons.mp hinner with rfl | hinner
  · exact nofun
  rcases List.mem_append.mp hinner with hinner | hinner
  · obtain ⟨step, hstep, rfl⟩ := List.mem_map.mp hinner
    exact hsteps container hcontainer step hstep
  · obtain ⟨group, -, rfl⟩ := List.mem_map.mp hinner
    exact (htabular _ hheading).width_eq rfl

section Parsed

variable {uri document : Text} {feature : Feature}

/-- The nodes of a document that was read can be written again. -/
theorem isWritten_of_mem_nodes (hparse : parseFeature uri document = .ok feature) :
    ∀ heading ∈ feature.headings, ∀ node ∈ heading.nodes, node.IsWritten ∧
      node.uri = uri := by
  intro heading hheading node hnode
  have hmem : node ∈ feature.headings.flatMap Heading.nodes :=
    List.mem_flatMap.mpr ⟨heading, hheading, hnode⟩
  rw [flatMap_nodes_of_parse hparse] at hmem
  obtain ⟨attachment, hattachment, rfl⟩ := List.mem_map.mp hmem
  exact ⟨Attachment.isWritten_node fun token htoken =>
    isWritten_of_mem_scan (Layout.mem_of_mem_above hattachment htoken), rfl⟩

theorem isComment_of_mem_trailingComments
    (hparse : parseFeature uri document = .ok feature) :
    ∀ comment ∈ feature.trailingComments, comment.IsComment := by
  intro comment hcomment
  have htrailing := mem_comments_of_mem_trailingComments hparse hcomment
  exact isComment_of_mem
    (fun token htoken => isWritten_of_mem_scan (Layout.mem_of_mem_trailing htoken))
    comment htrailing

/-- Every heading of a document that was read can be written again, if the tables of
its steps are even. -/
theorem isRebuilt_of_mem_headings (hparse : parseFeature uri document = .ok feature)
    (hsteps : ∀ container ∈ feature.containers, ∀ step ∈ container.steps,
      step.heading.IsEven) :
    ∀ heading ∈ feature.headings, heading.IsRebuilt uri := by
  intro heading hheading
  have hyields := forall₂_yields_of_parse hparse
  obtain ⟨passage, hpassage, hyields⟩ := exists_passage_of_mem_headings hyields hheading
  obtain ⟨token, htoken, hkind⟩ := exists_keyword_of_mem_passages hpassage
  have hopening := isWritten_of_mem_scan htoken
  rw [hkind, ← hyields.opening_eq] at hopening
  have hbody : ∀ token ∈ passage.body, token.kind.IsWritten := fun token htoken =>
    isWritten_of_mem_scan (mem_of_mem_passages hpassage htoken)
  have hnodes := isWritten_of_mem_nodes hparse heading hheading
  have htabular := isTabular_of_parse hparse
  exact
    { nodes := fun node hnode => (hnodes node hnode).1
      opening := hopening
      description := hyields.isSaid_description hbody
      docs := hyields.docs.isWritten hbody
      cells := hyields.areTrimmed_cells
      uri_eq := fun node hnode => (hnodes node hnode).2
      even := Feature.isEven_of_mem_headings htabular hsteps heading hheading }

end Parsed

end Gherkin
