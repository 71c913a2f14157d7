import Gherkin.Proofs.Attachment
import Gherkin.Proofs.Origin

/-!
# Asking for a tag

A tag loses an at sign twice: when its line is read, and when a node is asked for it.
So a node is asked for a tag as it was written, with the at sign, and it answers for
the words on the tag lines above it.  What a node lists has lost its at sign already.
To ask for it works if no other is left, so a tag that was written with two of them is
listed, but is not found by the name that it is listed under.
-/

namespace Gherkin

theorem Text.trimTag_eq_self {name : Text} (hhead : name.head? ≠ some '@') :
    name.trimTag = name := by
  unfold trimTag
  split
  · exact absurd rfl hhead
  · rfl

namespace Node

variable {node : Node} {query : Text}

theorem hasTag_eq_true_iff : node.hasTag query = true ↔ query.trimTag ∈ node.tags :=
  List.contains_iff_mem

/-- A listed tag is found with an at sign in front of it. -/
theorem hasTag_at_cons (htag : query ∈ node.tags) : node.hasTag ('@' :: query) = true :=
  hasTag_eq_true_iff.mpr htag

/-- As it is listed, a tag is found unless another at sign is taken from it. -/
theorem hasTag_eq_true_iff_of_mem (htag : query ∈ node.tags) :
    node.hasTag query = true ↔ query.head? ≠ some '@' ∨ query.trimTag ∈ node.tags := by
  rw [hasTag_eq_true_iff]
  constructor
  · exact .inr
  · rintro (hhead | htrimmed)
    · rwa [Text.trimTag_eq_self hhead]
    · exact htrimmed

theorem hasTag_eq_false (htrimmed : query.trimTag ∉ node.tags) :
    node.hasTag query = false :=
  Bool.eq_false_iff.mpr (mt hasTag_eq_true_iff.mp htrimmed)

end Node

/-! ## The words of a tag line -/

namespace LineKind

/-- The words of a tag line, up to the first that starts with a number sign. -/
def tagWords (line : Text) : List Text :=
  (words line).takeWhile fun word => word.head? != some '#'

variable {keywords : KeywordTable} {line name : Text} {names : List Text}

/-- A tag line names its words, each without an at sign. -/
theorem mem_tagNames_iff :
    name ∈ tagNames line ↔ name ≠ [] ∧ ∃ word ∈ tagWords line, word.trimTag = name := by
  simp only [tagNames, tagWords, List.mem_filter, List.mem_map, Bool.not_eq_true',
    List.isEmpty_eq_false_iff]
  exact and_comm

theorem eq_tagNames_of_ofLine (hkind : ofLine keywords line = tags names) :
    names = tagNames line.trim := by
  simp only [ofLine] at hkind
  split at hkind
  · cases hkind
  · split at hkind
    · exact (tags.inj hkind).symm
    · cases hkind
    · cases hkind
    · split at hkind
      · cases hkind
      · split at hkind <;> cases hkind

end LineKind

/-- The token is a tag line of the document, and the word stands on it. -/
def Token.Tags (document : Text) (token : Token) (word : Text) : Prop :=
  ∃ names line, token.kind = .tags names ∧
    document.trimmedLine? token.line = some line ∧
    word ∈ LineKind.tagWords line

/-- What a token adds to the tags of the next node are the words on its line. -/
theorem mem_tagsOf_iff_of_mem_scan {keywords : KeywordTable} {document name : Text}
    {token : Token} (htoken : token ∈ (scan keywords document).tokens) :
    name ∈ token.kind.tagsOf ↔
      name ≠ [] ∧ ∃ word, token.Tags document word ∧ word.trimTag = name := by
  obtain ⟨line, hline, hkind⟩ := exists_trimmedLine?_of_mem_scan htoken
  have hnames {names : List Text} (htags : token.kind = .tags names) :
      names = LineKind.tagNames line.trim := by
    rw [htags] at hkind
    rcases hkind with hkind | ⟨fence, hkind⟩
    · exact LineKind.eq_tagNames_of_ofLine hkind.symm
    · obtain ⟨_, hcases⟩ | hcases :=
        LineKind.cases_of_ofContentLine hkind <;> cases hcases
  constructor
  · intro hname
    rcases htags : token.kind with _ | names | _ | _ | _ | _ | _ | _ <;>
      rw [htags] at hname
    case tags =>
      rw [LineKind.tagsOf, hnames htags] at hname
      obtain ⟨hne, word, hword, htrim⟩ := LineKind.mem_tagNames_iff.mp hname
      exact ⟨hne, word, ⟨names, line.trim, htags, hline, hword⟩, htrim⟩
    all_goals cases hname
  · rintro ⟨hne, word, ⟨names, other, htags, hother, hword⟩, htrim⟩
    obtain rfl : line.trim = other := Option.some.inj (hline.symm.trans hother)
    rw [htags, LineKind.tagsOf, hnames htags]
    exact LineKind.mem_tagNames_iff.mpr ⟨hne, word, hword, htrim⟩

/-! ## The tags of a document -/

/-- A node carries the tag lines above it, and is found by every word on them. -/
theorem Attachment.hasTag_node_iff {keywords : KeywordTable} {uri document query : Text}
    {attachment : Attachment}
    (hattachment : attachment ∈
      (Layout.ofTokens (scan keywords document).tokens).attachments) :
    (attachment.node uri).hasTag query = true ↔
      query.trimTag ≠ [] ∧ ∃ token ∈ attachment.above, ∃ word,
        token.Tags document word ∧ word.trimTag = query.trimTag := by
  have hnames {token : Token} (htoken : token ∈ attachment.above) :
      query.trimTag ∈ token.kind.tagsOf ↔
        query.trimTag ≠ [] ∧ ∃ word,
          token.Tags document word ∧ word.trimTag = query.trimTag :=
    mem_tagsOf_iff_of_mem_scan (Layout.mem_of_mem_above hattachment htoken)
  rw [Node.hasTag_eq_true_iff, Attachment.node, List.mem_flatMap]
  constructor
  · rintro ⟨token, htoken, hname⟩
    obtain ⟨hne, hword⟩ := (hnames htoken).mp hname
    exact ⟨hne, token, htoken, hword⟩
  · rintro ⟨hne, token, htoken, hword⟩
    exact ⟨token, htoken, (hnames htoken).mpr ⟨hne, hword⟩⟩

/-- Every node of a document is found by the words on the tag lines above it and by
nothing else.  Each tag that it lists is found with an at sign in front of it, but as it
is listed only if it has no at sign left or is listed without that one too. -/
theorem parse_finds_tags {config : Config} {uri document : Text} {feature : Feature}
    (hparse : parse config uri document = .ok feature) :
    ∀ node ∈ feature.listing.map Construct.node,
      (∃ attachment ∈
          (Layout.ofTokens (scan config.keywords document).tokens).attachments,
        attachment.node uri = node ∧
        ∀ query, node.hasTag query = true ↔
          query.trimTag ≠ [] ∧ ∃ token ∈ attachment.above, ∃ word,
            token.Tags document word ∧ word.trimTag = query.trimTag) ∧
      (∀ tag ∈ node.tags, node.hasTag ('@' :: tag) = true ∧
        (node.hasTag tag = true ↔ tag.head? ≠ some '@' ∨ tag.trimTag ∈ node.tags)) ∧
      ∀ query, query ∉ node.tags → query.trimTag ∉ node.tags →
        node.hasTag query = false := by
  intro node hnode
  rw [feature.map_node_listing, flatMap_nodes_of_parse hparse] at hnode
  obtain ⟨attachment, hattachment, rfl⟩ := List.mem_map.mp hnode
  refine ⟨⟨attachment, hattachment, rfl, ?_⟩, ?_, ?_⟩
  · exact fun query => Attachment.hasTag_node_iff hattachment
  · exact fun tag htag =>
      ⟨Node.hasTag_at_cons htag, Node.hasTag_eq_true_iff_of_mem htag⟩
  · exact fun query _ htrimmed => Node.hasTag_eq_false htrimmed

/-- A feature with a tag that was written with two at signs. -/
def doublyTaggedDocument : Text :=
  "@@double @wip\nFeature: F\n".toList

def doublyTaggedFeature : Feature where
  uri := "u".toList
  line := 2
  comments := []
  tags := ["@double".toList, "wip".toList]
  keyword := "Feature".toList
  name := "F".toList
  description := []
  backgrounds := []
  scenarios := []
  trailingComments := []

theorem parse_finds_tags_doublyTagged :
    parse {} "u".toList doublyTaggedDocument = .ok doublyTaggedFeature ∧
      ∀ tag ∈ doublyTaggedFeature.tags, doublyTaggedFeature.hasTag ('@' :: tag) = true ∧
        (doublyTaggedFeature.hasTag tag = true ↔
          tag.head? ≠ some '@' ∨ tag.trimTag ∈ doublyTaggedFeature.tags) := by
  have hparse : parse {} "u".toList doublyTaggedDocument =
      .ok doublyTaggedFeature := rfl
  exact ⟨hparse, (parse_finds_tags hparse doublyTaggedFeature.toNode (by decide)).2.1⟩

/-- The tag with two at signs is listed, and is not found as it is listed. -/
theorem doublyTagged_misses_listed_tag :
    parse {} "u".toList doublyTaggedDocument = .ok doublyTaggedFeature ∧
      "@double".toList ∈ doublyTaggedFeature.tags ∧
      doublyTaggedFeature.hasTag "@double".toList = false :=
  ⟨rfl, by decide, by decide⟩

end Gherkin
