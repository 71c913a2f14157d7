import Gherkin.Proofs.Written

/-!
# Where characters come from

Reading takes texts out of lines, drops what stands around them and joins some of them,
but it makes up no characters.  Every text of a token is made of characters of its line.
Every text of a document that was read is made of characters of the document and of line
feeds, which join the lines of a description or a doc string, or which a cell escapes.
-/

namespace Gherkin

namespace Text

theorem trimKeyword_subset (written : Text) : written.trimKeyword ⊆ written :=
  dropEndWhile_dropWhile_subset _ _ written

theorem trimComment_subset (line : Text) : line.trimComment ⊆ line :=
  dropEndWhile_dropWhile_subset _ isWhite line

end Text

/-! ## Texts of tokens -/

/-- The texts that a line of the kind holds. -/
def LineKind.texts : LineKind → List Text
  | keyword opening => [opening.keyword, opening.text]
  | tags names => names
  | comment said => [said]
  | tableRow raw => [raw]
  | fence line => line.contentType?.toList
  | content line => [line]
  | text said => [said]
  | blank => []

/-- A keyword line is made of characters of the line. -/
theorem KeywordTable.subset_of_readLine? {table : KeywordTable} {line : Text}
    {opening : KeywordLine} (hread : table.readLine? line = some opening) :
    opening.keyword ⊆ line ∧ opening.text ⊆ line := by
  obtain ⟨⟨literal, role⟩, -, hopening⟩ := List.exists_of_findSome?_eq_some hread
  have hliteral := KeywordLine.isPrefix_of_ofLiteral? hopening
  obtain ⟨-, hkeyword, text, htext, htrim⟩ := KeywordLine.eq_of_ofLiteral? hopening
  rw [hkeyword, htrim]
  exact ⟨List.Subset.trans literal.trimKeyword_subset hliteral.subset,
    List.Subset.trans text.trim_subset htext.subset⟩

namespace LineKind

/-- Whatever a line is read as is made of characters of the line. -/
theorem texts_ofLine_subset (keywords : KeywordTable) (line : Text) :
    ∀ text ∈ (ofLine keywords line).texts, text ⊆ line := by
  have htrim := line.trim_subset
  simp only [ofLine]
  split
  · next opening hread =>
      obtain ⟨hkeyword, htext⟩ := KeywordTable.subset_of_readLine? hread
      exact List.forall_mem_cons.mpr ⟨List.Subset.trans hkeyword htrim,
        List.forall_mem_singleton.mpr (List.Subset.trans htext htrim)⟩
  · split
    · intro name hname
      apply List.Subset.trans _ htrim
      exact fun c hc => (mem_and_not_isWhite_of_mem_tagNames hname c hc).1
    · have hcomment := List.Subset.trans line.trim.trimComment_subset htrim
      exact List.forall_mem_singleton.mpr hcomment
    · exact List.forall_mem_singleton.mpr htrim
    · split
      · next opening hopening =>
          intro contentType hcontentType
          obtain ⟨-, rest, hrest, rfl⟩ := contentType_of_opening? hopening contentType
            (Option.mem_toList.mp hcontentType)
          exact List.Subset.trans rest.trim_subset hrest.subset
      · split
        · exact List.forall_mem_nil _
        · exact List.forall_mem_singleton.mpr htrim

theorem texts_ofContentLine_subset (fence : Fence) (line : Text) :
    ∀ text ∈ (ofContentLine fence line).texts, text ⊆ line := by
  simp only [ofContentLine, FenceLine.closing?]
  by_cases hclosing : line.trim = fence.text
  · rw [if_pos hclosing]
    exact List.forall_mem_nil _
  · rw [if_neg hclosing]
    exact List.forall_mem_singleton.mpr (List.Subset.refl line)

end LineKind

/-- The texts of a token are made of characters of the document. -/
theorem texts_subset_of_mem_scan {keywords : KeywordTable} {document : Text}
    {token : Token} (htoken : token ∈ (scan keywords document).tokens) :
    ∀ text ∈ token.kind.texts, text ⊆ document := by
  obtain ⟨line, hline, hkind⟩ := Scanner.exists_line_of_mem htoken
  have hdocument : line ⊆ document :=
      fun c hc => (Text.mem_and_ne_of_mem_lines hline hc).1
  intro text htext
  apply List.Subset.trans _ hdocument
  rcases hkind with hkind | ⟨fence, hkind⟩
  · exact LineKind.texts_ofLine_subset keywords line text (hkind ▸ htext)
  · exact LineKind.texts_ofContentLine_subset fence line text (hkind ▸ htext)

/-! ## Texts of documents -/

/-- The comments and the tags of a node. -/
def Node.texts (node : Node) : List Text :=
  node.comments ++ node.tags

/-- The content of a doc string and its content type. -/
def DocString.texts (doc : DocString) : List Text :=
  doc.content :: doc.contentType?.toList

/-- The texts of a heading: its keyword and its name, the description, the comments and
tags of its nodes, and what its doc strings and rows hold. -/
def Heading.texts (heading : Heading) : List Text :=
  [heading.opening.keyword, heading.opening.text, heading.description] ++
    (heading.nodes.flatMap Node.texts ++
      (heading.docs.flatMap DocString.texts ++ heading.rows.flatMap Row.cells))

/-- Every text of a document, apart from its address. -/
def Feature.texts (feature : Feature) : List Text :=
  feature.headings.flatMap Heading.texts ++ feature.trailingComments

/-- The tokens hold nothing but characters of the source. -/
def AreTakenFrom (source : Text) (tokens : List Token) : Prop :=
  ∀ token ∈ tokens, ∀ text ∈ token.kind.texts, text ⊆ source

namespace AreTakenFrom

variable {source uri : Text} {tokens : List Token}

theorem of_subset {others : List Token} (htokens : AreTakenFrom source tokens)
    (hothers : others ⊆ tokens) : AreTakenFrom source others :=
  fun token htoken => htokens token (hothers htoken)

theorem comments (htokens : AreTakenFrom source tokens) :
    ∀ text ∈ tokens.flatMap (fun token => token.kind.comments), text ⊆ source := by
  intro text htext
  obtain ⟨⟨line, kind⟩, htoken, htext⟩ := List.mem_flatMap.mp htext
  apply htokens _ htoken
  cases kind with
  | comment => exact htext
  | _ => cases htext

theorem tags (htokens : AreTakenFrom source tokens) :
    ∀ text ∈ tokens.flatMap (fun token => token.kind.tagsOf), text ⊆ source := by
  intro text htext
  obtain ⟨⟨line, kind⟩, htoken, htext⟩ := List.mem_flatMap.mp htext
  apply htokens _ htoken
  cases kind with
  | tags => exact htext
  | _ => cases htext

/-- A node has the comments and the tags of the tokens above its construct. -/
theorem texts_node {attachment : Attachment}
    (habove : AreTakenFrom source attachment.above) :
    ∀ text ∈ (attachment.node uri).texts, text ⊆ source :=
  List.forall_mem_append.mpr ⟨habove.comments, habove.tags⟩

variable (hlineFeed : '\n' ∈ source)

include hlineFeed

theorem texts_docs {docs : List DocString} (hdocs : DocStrings tokens docs)
    (htokens : AreTakenFrom source tokens) :
    ∀ text ∈ docs.flatMap DocString.texts, text ⊆ source := by
  intro text htext
  obtain ⟨doc, hdoc, htext⟩ := List.mem_flatMap.mp htext
  obtain ⟨opening, contents, hfrom⟩ := hdocs.exists_comesFrom hdoc
  rcases List.mem_cons.mp htext with rfl | htext
  · rw [hfrom.content_eq]
    apply Text.joinLines_subset hlineFeed
    intro said hsaid
    obtain ⟨content, hcontent, rfl⟩ := List.mem_map.mp hsaid
    obtain ⟨token, htoken, hkind⟩ := hfrom.content_mem content hcontent
    have htaken := htokens token htoken
    rw [hkind] at htaken
    exact List.Subset.trans (opening.content_subset content)
      (htaken content (List.mem_singleton.mpr rfl))
  · obtain ⟨token, htoken, hkind⟩ := hfrom.fence_mem
    have htaken := htokens token htoken
    rw [hkind] at htaken
    rw [hfrom.contentType?_eq] at htext
    exact htaken text htext

/-- A heading is made of what its passage is made of, its nodes apart. -/
theorem texts_heading {passage : Passage} {heading : Heading}
    (hyields : passage.Yields uri heading)
    (hopening : AreTakenFrom source [⟨passage.line, .keyword passage.opening⟩])
    (hbody : AreTakenFrom source passage.body)
    (hnodes : ∀ text ∈ heading.nodes.flatMap Node.texts, text ⊆ source) :
    ∀ text ∈ heading.texts, text ⊆ source := by
  have hdescription : heading.description ⊆ source := by
    rw [hyields.description_eq]
    apply Text.joinLines_subset hlineFeed
    intro said hsaid
    obtain ⟨token, htoken, htext⟩ := List.mem_filterMap.mp hsaid
    apply hbody token htoken
    rw [Token.text?_eq_some.mp htext]
    exact List.mem_singleton.mpr rfl
  have hrows : ∀ cell ∈ heading.rows.flatMap Row.cells, cell ⊆ source := by
    intro cell hcell
    obtain ⟨row, hrow, hcell⟩ := List.mem_flatMap.mp hcell
    obtain ⟨token, htoken, raw, hkind, hcells⟩ :=
      hyields.exists_tableRow_of_mem_rows hrow
    apply Cells.subset_of_decode hlineFeed _ hcells cell hcell
    apply hbody token htoken
    rw [hkind]
    exact List.mem_singleton.mpr rfl
  have hwritten := hopening _ (List.mem_singleton.mpr rfl)
  rw [← hyields.opening_eq] at hwritten
  have hdocs := texts_docs hlineFeed hyields.docs hbody
  simp only [Heading.texts, List.forall_mem_append]
  refine ⟨?_, hnodes, hdocs, hrows⟩
  simp only [List.forall_mem_cons]
  exact ⟨hwritten _ List.mem_cons_self,
    hwritten _ (List.mem_cons_of_mem _ List.mem_cons_self), hdescription, nofun⟩

end AreTakenFrom

/-- Every text of a document that was read is made of characters of the document and of
line feeds. -/
theorem texts_subset_of_parse {config : Config} {uri document : Text}
    {feature : Feature}
    (hparse : parse config uri document = .ok feature) :
    ∀ text ∈ feature.texts, text ⊆ '\n' :: document := by
  let tokens := (scan config.keywords document).tokens
  have hlineFeed : '\n' ∈ '\n' :: document := List.mem_cons_self
  have htokens : AreTakenFrom ('\n' :: document) tokens :=
      fun token htoken text htext =>
    List.subset_cons_of_subset _ (texts_subset_of_mem_scan htoken text htext)
  -- Comments and tags stand above their nodes, outside the passages of the headings.
  have hnodes : ∀ heading ∈ feature.headings,
      ∀ text ∈ heading.nodes.flatMap Node.texts, text ⊆ '\n' :: document := by
    intro heading hheading text htext
    obtain ⟨node, hnode, htext⟩ := List.mem_flatMap.mp htext
    have hmem := List.mem_flatMap.mpr ⟨heading, hheading, hnode⟩
    rw [flatMap_nodes_of_parse hparse] at hmem
    obtain ⟨attachment, hattachment, rfl⟩ := List.mem_map.mp hmem
    have habove := htokens.of_subset fun _ => Layout.mem_of_mem_above hattachment
    exact habove.texts_node text htext
  simp only [Feature.texts, List.forall_mem_append]
  constructor
  · intro text htext
    obtain ⟨heading, hheading, htext⟩ := List.mem_flatMap.mp htext
    obtain ⟨passage, hpassage, hyields⟩ :=
      exists_passage_of_mem_headings (forall₂_yields_of_parse hparse) hheading
    obtain ⟨token, htoken, hkind⟩ := exists_keyword_of_mem_passages hpassage
    have hopening :
        AreTakenFrom ('\n' :: document) [⟨passage.line, .keyword passage.opening⟩] :=
      List.forall_mem_singleton.mpr (hkind ▸ htokens token htoken)
    have hbody := htokens.of_subset fun _ => mem_of_mem_passages hpassage
    exact AreTakenFrom.texts_heading hlineFeed hyields hopening hbody
      (hnodes heading hheading) text htext
  · intro comment hcomment
    have htrailing := htokens.of_subset fun _ => Layout.mem_of_mem_trailing
    exact htrailing.comments comment
      (mem_comments_of_mem_trailingComments hparse hcomment)

/-- Content is a line of the document as it stands. -/
theorem mem_lines_of_mem_scan {keywords : KeywordTable} {document content : Text}
    {token : Token} (htoken : token ∈ (scan keywords document).tokens)
    (hkind : token.kind = .content content) : content ∈ document.lines := by
  obtain ⟨line, hline, hread | ⟨fence, hread⟩⟩ := Scanner.exists_line_of_mem htoken
  · exact absurd (hread.symm.trans hkind) (LineKind.ofLine_ne_content content)
  · exact LineKind.eq_of_ofContentLine_eq_content (hread.symm.trans hkind) ▸ hline

/-- The content of a doc string that was read is joined from lines of the document. -/
theorem exists_joined_of_mem_docs {config : Config} {uri document : Text}
    {feature : Feature} (hparse : parse config uri document = .ok feature)
    {heading : Heading} (hheading : heading ∈ feature.headings) {doc : DocString}
    (hdoc : doc ∈ heading.docs) :
    ∃ (opening : FenceLine) (contents : List Text),
      doc.content = Text.joinLines (contents.map opening.content) ∧
        ∀ content ∈ contents, content ∈ document.lines := by
  obtain ⟨passage, hpassage, hyields⟩ :=
    exists_passage_of_mem_headings (forall₂_yields_of_parse hparse) hheading
  obtain ⟨opening, contents, hfrom⟩ := hyields.docs.exists_comesFrom hdoc
  refine ⟨opening, contents, hfrom.content_eq, fun content hcontent => ?_⟩
  obtain ⟨token, htoken, hkind⟩ := hfrom.content_mem content hcontent
  exact mem_lines_of_mem_scan (mem_of_mem_passages hpassage htoken) hkind

end Gherkin
