import Gherkin.Proofs.Document.Headings
import Mathlib.Data.List.Basic
import Mathlib.Data.List.Induction

/-!
# Comments and tags find their node

Every keyword opens a node, and so does every table row behind the first keyword.
What stands between two such constructs is above the second one.  The comments and
tags of a node are those of the lines above it, whatever else stands between them,
and the comments behind the last construct are the trailing comments of the
document.  Tags behind the last construct are lost.
-/

namespace Gherkin

/-- A construct that is a node, and the tokens between the construct before it and
itself. -/
structure Attachment where
  construct : Token
  above : List Token
deriving DecidableEq, Repr

/-- The node of the construct, with the comments and the tags above it. -/
def Attachment.node (uri : Text) (attachment : Attachment) : Node where
  uri := uri
  line := attachment.construct.line
  comments := attachment.above.flatMap fun token => token.kind.comments
  tags := attachment.above.flatMap fun token => token.kind.tagsOf

/-- The constructs of a document with what is above them, and the tokens behind the
last one. -/
structure Layout where
  attachments : List Attachment := []
  trailing : List Token := []
deriving DecidableEq, Repr

namespace Layout

/-- The layout with one more token.  A table row in front of the first keyword is no
construct. -/
def next (layout : Layout) (token : Token) : Layout :=
  match token.kind, layout.attachments with
  | .keyword _, _ | .tableRow _, _ :: _ =>
      { attachments := layout.attachments ++ [⟨token, layout.trailing⟩],
        trailing := [] }
  | _, _ => { layout with trailing := layout.trailing ++ [token] }

def ofTokens (tokens : List Token) : Layout :=
  tokens.foldl next {}

theorem ofTokens_concat (tokens : List Token) (token : Token) :
    ofTokens (tokens ++ [token]) = (ofTokens tokens).next token := by
  rw [ofTokens, List.foldl_append]
  rfl

variable {layout : Layout} {token : Token} {opening : KeywordLine}

theorem next_of_keyword (hkind : token.kind = .keyword opening) :
    layout.next token =
      { attachments := layout.attachments ++ [⟨token, layout.trailing⟩],
        trailing := [] } := by
  rw [next, hkind]

theorem next_of_tableRow {raw : Text} (hkind : token.kind = .tableRow raw)
    (hopened : layout.attachments ≠ []) :
    layout.next token =
      { attachments := layout.attachments ++ [⟨token, layout.trailing⟩],
        trailing := [] } := by
  obtain ⟨first, others, hfirst⟩ := List.exists_cons_of_ne_nil hopened
  rw [next, hkind, hfirst]

/-- Any other token is above the next construct. -/
theorem next_of_ne_keyword (hkeyword : ∀ opening, token.kind ≠ .keyword opening)
    (hrow : ∀ raw, token.kind = .tableRow raw → layout.attachments = []) :
    layout.next token = { layout with trailing := layout.trailing ++ [token] } := by
  unfold next
  split <;> simp_all

/-- Every token is a construct, above one, or behind the last. -/
theorem flatMap_ofTokens (tokens : List Token) :
    ((ofTokens tokens).attachments.flatMap fun attachment =>
        attachment.above ++ [attachment.construct]) ++ (ofTokens tokens).trailing =
      tokens := by
  induction tokens using List.reverseRecOn with
  | nil => rfl
  | append_singleton tokens token ih =>
      rw [ofTokens_concat, next]
      split
      all_goals
        conv_rhs => rw [← ih]
        simp

theorem mem_of_mem_above {tokens : List Token} {attachment : Attachment}
    (hattachment : attachment ∈ (ofTokens tokens).attachments)
    (htoken : token ∈ attachment.above) : token ∈ tokens := by
  rw [← flatMap_ofTokens tokens]
  refine List.mem_append_left _ (List.mem_flatMap.mpr ⟨attachment, hattachment, ?_⟩)
  exact List.mem_append_left _ htoken

theorem mem_of_mem_trailing {tokens : List Token}
    (htoken : token ∈ (ofTokens tokens).trailing) : token ∈ tokens := by
  rw [← flatMap_ofTokens tokens]
  exact List.mem_append_right _ htoken

/-- A construct is no annotation itself. -/
theorem comments_and_tagsOf_construct {tokens : List Token} {attachment : Attachment}
    (hattachment : attachment ∈ (ofTokens tokens).attachments) :
    attachment.construct.kind.comments = [] ∧
      attachment.construct.kind.tagsOf = [] := by
  induction tokens using List.reverseRecOn with
  | nil => cases hattachment
  | append_singleton tokens token ih =>
      have hconcat (hkind : token.kind.comments = [] ∧ token.kind.tagsOf = [])
          (hmem : attachment ∈
            (ofTokens tokens).attachments ++ [⟨token, (ofTokens tokens).trailing⟩]) :
          attachment.construct.kind.comments = [] ∧
            attachment.construct.kind.tagsOf = [] := by
        rcases List.mem_append.mp hmem with hmem | hmem
        · exact ih hmem
        · rw [List.mem_singleton.mp hmem]
          exact hkind
      rw [ofTokens_concat, next] at hattachment
      split at hattachment
      · next hkind => exact hconcat (by rw [hkind]; exact ⟨rfl, rfl⟩) hattachment
      · next hkind _ => exact hconcat (by rw [hkind]; exact ⟨rfl, rfl⟩) hattachment
      · exact ih hattachment

/-- What is above the constructs and behind the last one is everything, for whatever
the constructs have nothing of themselves. -/
theorem flatMap_above {Item : Type} (tokens : List Token) (items : LineKind → List Item)
    (hconstruct : ∀ attachment ∈ (ofTokens tokens).attachments,
      items attachment.construct.kind = []) :
    (ofTokens tokens).attachments.flatMap
          (fun attachment => attachment.above.flatMap fun token => items token.kind) ++
        (ofTokens tokens).trailing.flatMap (fun token => items token.kind) =
      tokens.flatMap fun token => items token.kind := by
  let layout := ofTokens tokens
  have habove : layout.attachments.flatMap
        (fun attachment => attachment.above.flatMap fun token => items token.kind) =
      (layout.attachments.flatMap fun attachment =>
        attachment.above ++ [attachment.construct]).flatMap fun token =>
          items token.kind := by
    rw [List.flatMap_assoc]
    apply List.flatMap_congr
    intro attachment hattachment
    rw [List.flatMap_append, List.flatMap_singleton, hconstruct attachment hattachment,
      List.append_nil]
  calc
    layout.attachments.flatMap
          (fun attachment => attachment.above.flatMap fun token => items token.kind) ++
        layout.trailing.flatMap (fun token => items token.kind) =
      ((layout.attachments.flatMap fun attachment =>
          attachment.above ++ [attachment.construct]) ++ layout.trailing).flatMap
        fun token => items token.kind := by
      rw [habove, ← List.flatMap_append]
    _ = tokens.flatMap fun token => items token.kind := by
      rw [flatMap_ofTokens]

end Layout

namespace LineKind.IsAnnotation

variable {kind : LineKind}

theorem ne_keyword (hkind : kind.IsAnnotation) (opening : KeywordLine) :
    kind ≠ .keyword opening := by
  rintro rfl
  exact hkind

theorem ne_tableRow (hkind : kind.IsAnnotation) (raw : Text) :
    kind ≠ .tableRow raw := by
  rintro rfl
  exact hkind

end LineKind.IsAnnotation

namespace Phase

variable {node : Node} {line : Nat} {kind : LineKind} {phase next : Phase}

/-- A keyword opens a construct, and so does a row behind the first keyword. -/
theorem Opens.kind_cases (hopens : phase.Opens node kind next) :
    (∃ opening, kind = .keyword opening) ∨
      (∃ raw, kind = .tableRow raw) ∧ phase ≠ .awaiting := by
  cases hopens with
  | feature | background | container | examples | step => exact .inl ⟨_, rfl⟩
  | stepRow | groupRow => exact .inr ⟨⟨_, rfl⟩, nofun⟩

theorem Extends.ne_keyword (hextends : phase.Extends line kind next)
    (opening : KeywordLine) :
    kind ≠ .keyword opening := by
  rintro rfl
  cases hextends with
  | pass hkind => exact hkind

theorem Extends.eq_awaiting_of_tableRow (hextends : phase.Extends line kind next)
    {raw : Text}
    (hkind : kind = .tableRow raw) : phase = .awaiting := by
  subst hkind
  cases hextends with
  | pass => rfl

theorem Extends.comments_and_tagsOf (hextends : phase.Extends line kind next) :
    kind.comments = [] ∧ kind.tagsOf = [] := by
  cases hextends with
  | pass hkind => cases kind <;> first | exact hkind.elim | exact ⟨rfl, rfl⟩
  | _ => exact ⟨rfl, rfl⟩

end Phase

namespace Assembly

/-- Every construct that was read has become a node with what was above it, and what
is above the next construct is pending. -/
structure Owns (assembly : Assembly) (layout : Layout) : Prop where
  nodes_eq :
    assembly.phase.nodes = layout.attachments.map (Attachment.node assembly.uri)
  comments_eq :
    assembly.pending.comments = layout.trailing.flatMap fun token => token.kind.comments
  tags_eq : assembly.pending.tags = layout.trailing.flatMap fun token =>
    token.kind.tagsOf

variable {assembly next : Assembly} {layout : Layout} {token : Token}

theorem Move.owns (hmove : assembly.Move token next) (hsound : assembly.phase.Sound)
    (howns : assembly.Owns layout) : next.Owns (layout.next token) := by
  obtain ⟨hnodes, hcomments, htags⟩ := howns
  have hopened : layout.attachments = [] ↔ assembly.phase = .awaiting := by
    rw [← Phase.nodes_eq_nil_iff, hnodes, List.map_eq_nil_iff]
  cases hmove with
  | annotate hdoc hkind =>
      rw [Layout.next_of_ne_keyword hkind.ne_keyword
        fun raw heq => absurd heq (hkind.ne_tableRow raw)]
      refine ⟨hnodes, ?_, ?_⟩
      · simp [Pending.add, hcomments]
      · simp [Pending.add, htags]
  | opens hopens =>
      have hnext : layout.next token =
          { attachments := layout.attachments ++ [⟨token, layout.trailing⟩],
            trailing := [] } := by
        rcases hopens.kind_cases with ⟨opening, hkind⟩ | ⟨⟨raw, hkind⟩, hphase⟩
        · exact Layout.next_of_keyword hkind
        · exact Layout.next_of_tableRow hkind (mt hopened.mp hphase)
      rw [hnext]
      refine ⟨?_, rfl, rfl⟩
      rw [hopens.nodes hsound, hnodes, List.map_append, List.map_singleton,
        Attachment.node,
        ← hcomments, ← htags]
      rfl
  | extend hextends =>
      obtain ⟨hcommentsOf, htagsOf⟩ := hextends.comments_and_tagsOf
      rw [Layout.next_of_ne_keyword hextends.ne_keyword
        fun raw heq => hopened.mpr (hextends.eq_awaiting_of_tableRow heq)]
      refine ⟨?_, ?_, ?_⟩
      · rw [hextends.nodes hsound]
        exact hnodes
      · simp [hcomments, hcommentsOf]
      · simp [htags, htagsOf]

/-- What an assembly owns after a run. -/
theorem owns_of_feedAll {uri : Text} {policy : TrailingComments} {tokens : List Token}
    {final : Assembly} (hrun : (start uri policy).feedAll tokens = .ok final) :
    final.uri = uri ∧ final.Owns (Layout.ofTokens tokens) := by
  let invariant (front : List Token) (assembly : Assembly) : Prop :=
    assembly.uri = uri ∧ assembly.phase.Sound ∧ assembly.Owns (Layout.ofTokens front)
  suffices hfinal : invariant tokens final from ⟨hfinal.1, hfinal.2.2⟩
  apply feedAll_induction hrun ⟨rfl, trivial, rfl, rfl, rfl⟩
  rintro front token assembly next - ⟨rfl, hsound, howns⟩ hmove
  refine ⟨hmove.uri_eq, hmove.sound hsound, ?_⟩
  rw [Layout.ofTokens_concat]
  exact hmove.owns hsound howns

end Assembly

/-! ## The end of the document -/

theorem Feature.trailingComments_addContainer (feature : Feature)
    (container : Container) :
    (feature.addContainer container).trailingComments = feature.trailingComments := by
  unfold addContainer
  split <;> rfl

/-- Apart from its trailing comments a document does not depend on the policy. -/
theorem Feature.settle_trailingComments (feature : Feature) (policy : TrailingComments)
    (comments : List Text) :
    { feature.settle policy comments with trailingComments := [] } =
      { feature with trailingComments := [] } := by
  cases policy <;> rfl

namespace Phase

variable {node : Node} {line : Nat} {kind : LineKind} {phase next : Phase}

/-- No comment is known yet to stand behind the last construct. -/
def IsOpenEnded (phase : Phase) : Prop :=
  ∀ closed, phase.feature? = some closed → closed.trailingComments = []

theorem isOpenEnded_of_addContainer {feature : Feature} {container : Container}
    (hopen : phase.IsOpenEnded)
    (hclosed : phase.feature? = some (feature.addContainer container)) :
    feature.trailingComments = [] := by
  rw [← Feature.trailingComments_addContainer feature container]
  exact hopen _ hclosed

theorem Opens.isOpenEnded (hopens : phase.Opens node kind next)
    (hopen : phase.IsOpenEnded) :
    next.IsOpenEnded := by
  intro closed hclosed
  cases hopens with
  | feature =>
      rw [← Option.some.inj hclosed]
      rfl
  | background =>
      rw [← Option.some.inj hclosed, Feature.trailingComments_addContainer]
      exact hopen _ rfl
  | container _ hbefore =>
      rw [← Option.some.inj hclosed, Feature.trailingComments_addContainer]
      exact hopen _ hbefore
  | examples _ hcontainer =>
      rw [← Option.some.inj hclosed, Feature.trailingComments_addContainer]
      exact isOpenEnded_of_addContainer hopen (feature?_of_container? hcontainer)
  | step | stepRow | groupRow =>
      rw [← Option.some.inj hclosed, Feature.trailingComments_addContainer]
      exact isOpenEnded_of_addContainer hopen rfl

theorem Extends.isOpenEnded (hextends : phase.Extends line kind next)
    (hopen : phase.IsOpenEnded) : next.IsOpenEnded := by
  intro closed hclosed
  cases hextends with
  | pass => cases hclosed
  | @featureText feature _ =>
      rw [← Option.some.inj hclosed]
      exact hopen feature rfl
  | _ =>
      rw [← Option.some.inj hclosed, Feature.trailingComments_addContainer]
      exact isOpenEnded_of_addContainer hopen rfl

end Phase

theorem Assembly.isOpenEnded_of_feedAll {uri : Text} {policy : TrailingComments}
    {tokens : List Token} {final : Assembly}
    (hrun : (start uri policy).feedAll tokens = .ok final) :
    final.phase.IsOpenEnded := by
  let invariant (_ : List Token) (assembly : Assembly) : Prop :=
    assembly.phase.IsOpenEnded
  suffices hfinal : invariant tokens final from hfinal
  apply feedAll_induction hrun nofun
  intro front token assembly next _ hopen hmove
  cases hmove with
  | annotate => exact hopen
  | opens hopens => exact hopens.isOpenEnded hopen
  | extend hextends => exact hextends.isOpenEnded hopen

/-- The policy for the comments behind the last construct decides what becomes of
those comments and of nothing else. -/
theorem parse_policy {config : Config} {uri document : Text} {feature : Feature}
    (hparse : parse config uri document = .ok feature) (policy : TrailingComments) :
    let layout := Layout.ofTokens (scan config.keywords document).tokens
    parse { config with trailingComments := policy } uri document =
      .ok (Feature.settle { feature with trailingComments := [] } policy
        (layout.trailing.flatMap fun token => token.kind.comments)) := by
  intro layout
  obtain ⟨hfault, final, hrun, hfinish⟩ := parse_eq_ok_iff.mp hparse
  obtain ⟨hdoc, closed, hclosed, hfeature⟩ := Assembly.finish_eq_ok_iff.mp hfinish
  have hempty : { feature with trailingComments := [] } = closed := by
    rw [hfeature, Feature.settle_trailingComments]
    exact (Assembly.isOpenEnded_of_feedAll hrun closed hclosed) ▸ rfl
  have howns := (Assembly.owns_of_feedAll hrun).2
  refine parse_eq_ok_iff.mpr ⟨hfault, _, Assembly.feedAll_withPolicy hrun policy, ?_⟩
  refine Assembly.finish_eq_ok_iff.mpr ⟨hdoc, closed, hclosed, ?_⟩
  rw [hempty, ← howns.comments_eq]

/-- The trailing comments stand behind the last construct. -/
theorem mem_comments_of_mem_trailingComments {config : Config} {uri document : Text}
    {feature : Feature}
    (hparse : parse config uri document = .ok feature) {comment : Text}
    (hcomment : comment ∈ feature.trailingComments) :
    comment ∈ (Layout.ofTokens (scan config.keywords document).tokens).trailing.flatMap
      fun token => token.kind.comments := by
  rcases config with ⟨keywords, policy⟩
  have hsettled := parse_policy hparse policy
  rw [show parse _ uri document = .ok feature from hparse] at hsettled
  rw [Except.ok.inj hsettled] at hcomment
  cases policy with
  | attach => exact hcomment
  | discard => cases hcomment

/-- The nodes of a document that is read are those of its constructs. -/
theorem flatMap_nodes_of_parse {config : Config} {uri document : Text}
    {feature : Feature}
    (hparse : parse config uri document = .ok feature) :
    feature.headings.flatMap Heading.nodes =
      (Layout.ofTokens (scan config.keywords document).tokens).attachments.map
        (Attachment.node uri) := by
  obtain ⟨final, hrun, -, hheadings⟩ := exists_run_of_parse hparse
  obtain ⟨huri, howns⟩ := Assembly.owns_of_feedAll hrun
  rw [← hheadings, ← huri]
  exact howns.nodes_eq

/-- Every node has the comments and the tags that stand between the construct before
it and its own, and the comments behind the last construct are the trailing ones. -/
theorem parse_attaches {config : Config} {uri document : Text} {feature : Feature}
    (hparse : parse config uri document = .ok feature) :
    let tokens := (scan config.keywords document).tokens
    let layout := Layout.ofTokens tokens
    let nodes := feature.listing.map Construct.node
    let trailing := layout.trailing.flatMap fun token => token.kind.comments
    nodes = layout.attachments.map (Attachment.node uri) ∧
      nodes.flatMap Node.comments ++ trailing =
        tokens.flatMap (fun token => token.kind.comments) ∧
      nodes.flatMap Node.tags ++ layout.trailing.flatMap
        (fun token => token.kind.tagsOf) =
        tokens.flatMap (fun token => token.kind.tagsOf) ∧
      parse { config with trailingComments := .attach } uri document =
        .ok { feature with trailingComments := trailing } ∧
      parse { config with trailingComments := .discard } uri document =
        .ok { feature with trailingComments := [] } := by
  intro tokens layout nodes trailing
  have hnodes : nodes = layout.attachments.map (Attachment.node uri) :=
    feature.map_node_listing.trans (flatMap_nodes_of_parse hparse)
  refine ⟨hnodes, ?_, ?_, parse_policy hparse .attach, parse_policy hparse .discard⟩
  · rw [hnodes, List.flatMap_map]
    exact Layout.flatMap_above tokens LineKind.comments fun attachment hattachment =>
      (Layout.comments_and_tagsOf_construct hattachment).1
  · rw [hnodes, List.flatMap_map]
    exact Layout.flatMap_above tokens LineKind.tagsOf fun attachment hattachment =>
      (Layout.comments_and_tagsOf_construct hattachment).2

theorem sampleDocument_attaches :
    parse {} "u".toList sampleDocument = .ok sampleFeature ∧
      sampleFeature.listing.map Construct.node =
        (Layout.ofTokens (scan .english sampleDocument).tokens).attachments.map
          (Attachment.node "u".toList) :=
  ⟨parse_sampleDocument, (parse_attaches parse_sampleDocument).1⟩

end Gherkin
