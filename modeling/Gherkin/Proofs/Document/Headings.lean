import Gherkin.Document.Listing
import Gherkin.Proofs.Parsed

/-!
# Headings

A heading is a construct that a keyword opens, without the constructs nested in
it: its node, the keyword line, and the description, doc strings and rows of its
own.  The headings of a document stand in a fixed order, and seen through them a
document only grows at its end.  A keyword appends a heading, a row or a closed doc
string goes to the last heading, and closing a construct changes nothing.
-/

namespace Gherkin

/-- What a construct that a keyword opens holds itself. -/
structure Heading where
  node : Node
  opening : KeywordLine
  description : Text
  docs : List DocString
  rows : List Row
deriving DecidableEq, Repr

/-- The nodes of a heading: its own and those of its rows. -/
def Heading.nodes (heading : Heading) : List Node :=
  heading.node :: heading.rows.map Row.toNode

/-- A heading as it is opened. -/
def KeywordLine.heading (opening : KeywordLine) (node : Node) : Heading :=
  ⟨node, opening, [], [], []⟩

def Step.heading (step : Step) : Heading :=
  ⟨step.toNode, ⟨.step step.kind, step.keyword, step.name⟩, [], step.docs, step.rows⟩

def Examples.heading (group : Examples) : Heading :=
  ⟨group.toNode, ⟨.examples, group.keyword, group.name⟩, group.description, [],
    group.rows⟩

/-- The role of the keyword that opens such a container. -/
def ContainerKind.role : ContainerKind → Role
  | background => .background
  | scenario => .scenario
  | outline _ => .outline

namespace Container

def heading (container : Container) : Heading :=
  ⟨container.toNode, ⟨container.kind.role, container.keyword, container.name⟩,
    container.description, [], []⟩

/-- The container, its steps and its groups of examples. -/
def headings (container : Container) : List Heading :=
  container.heading ::
    (container.steps.map Step.heading ++ container.groups.map Examples.heading)

end Container

namespace Feature

def heading (feature : Feature) : Heading :=
  ⟨feature.toNode, ⟨.feature, feature.keyword, feature.name⟩,
    feature.description, [], []⟩

/-- The feature and its containers. -/
def headings (feature : Feature) : List Heading :=
  feature.heading :: feature.containers.flatMap Container.headings

/-- The nodes of a document in their order, read off its headings. -/
theorem map_node_listing (feature : Feature) :
    feature.listing.map Construct.node = feature.headings.flatMap Heading.nodes := by
  have hstep (step : Step) : step.listing.map Construct.node = step.heading.nodes := by
    simp [Step.listing, Step.heading, Heading.nodes, Construct.node, Function.comp_def]
  have hgroup (group : Examples) : group.listing.map Construct.node =
      group.heading.nodes := by
    simp [Examples.listing, Examples.heading, Heading.nodes, Construct.node,
      Function.comp_def]
  have hcontainer (container : Container) :
      container.listing.map Construct.node =
        container.headings.flatMap Heading.nodes := by
    simp [Container.listing, Container.headings, Container.heading, Heading.nodes,
      Construct.node, List.map_flatMap, List.flatMap_map, hstep, hgroup]
  simp [listing, headings, heading, Heading.nodes, Construct.node, List.map_flatMap,
    List.flatMap_assoc, hcontainer]

end Feature

/-! ## Headings of the constructs of a feature -/

namespace Feature

variable {feature : Feature} {container : Container}

theorem heading_mem_of_mem_containers (hcontainer : container ∈ feature.containers) :
    container.heading ∈ feature.headings :=
  List.mem_cons_of_mem _
    (List.mem_flatMap.mpr ⟨container, hcontainer, List.mem_cons_self⟩)

theorem heading_mem_of_mem_steps (hcontainer : container ∈ feature.containers)
    {step : Step} (hstep : step ∈ container.steps) :
    step.heading ∈ feature.headings := by
  refine List.mem_cons_of_mem _ (List.mem_flatMap.mpr ⟨container, hcontainer, ?_⟩)
  exact List.mem_cons_of_mem _ (List.mem_append_left _ (List.mem_map_of_mem hstep))

theorem heading_mem_of_mem_groups (hcontainer : container ∈ feature.containers)
    {group : Examples} (hgroup : group ∈ container.groups) :
    group.heading ∈ feature.headings := by
  refine List.mem_cons_of_mem _ (List.mem_flatMap.mpr ⟨container, hcontainer, ?_⟩)
  exact List.mem_cons_of_mem _ (List.mem_append_right _ (List.mem_map_of_mem hgroup))

end Feature

/-- The role that opens a container is that of its kind. -/
theorem Role.eq_role_of_containerKind? {role : Role} {kind : ContainerKind}
    (hkind : role.containerKind? = some kind) : role = kind.role := by
  unfold containerKind? at hkind
  split at hkind
  · rw [← Option.some.inj hkind]
    rfl
  · rw [← Option.some.inj hkind]
    rfl
  · cases hkind

/-- A container as it is opened has the heading that its keyword opens. -/
theorem KeywordLine.heading_container {opening : KeywordLine} {kind : ContainerKind}
    (node : Node) (hkind : opening.role.containerKind? = some kind) :
    (opening.container node kind).heading = opening.heading node := by
  rw [Container.heading, container, ← Role.eq_role_of_containerKind? hkind]
  rfl

/-- Comments behind the last construct belong to no heading. -/
theorem Feature.headings_settle (feature : Feature) (policy : TrailingComments)
    (comments : List Text) : (feature.settle policy comments).headings =
      feature.headings := by
  cases policy <;> rfl

/-! ## Closing a construct appends its headings -/

theorem Feature.IsBare.headings {feature : Feature} (hbare : feature.IsBare) :
    feature.headings = [feature.heading] := by
  rw [Feature.headings, containers, hbare.1, hbare.2]
  rfl

namespace Container

theorem headings_addStep {container : Container} (hgroups : container.groups = [])
    (openStep : OpenStep) :
    (container.addStep (some openStep)).headings =
      container.headings ++ [openStep.step.heading] := by
  have hadded : (container.addStep (some openStep)).groups = [] := by
    rw [groups_addStep, hgroups]
  rw [headings, hadded, headings, hgroups]
  simp [addStep, heading]

theorem headings_addGroup {container : Container}
    (houtline : container.isOutline = true)
    (group : Examples) :
    (container.addGroup group).headings = container.headings ++ [group.heading] := by
  rcases container with ⟨node, _ | _ | groups, keyword, name, description, steps⟩
  case outline =>
    simp [headings, heading, addGroup, Container.groups, ContainerKind.role]
  all_goals cases houtline

end Container

theorem Feature.headings_addContainer {feature : Feature} {container : Container}
    (hbare : container.isBackground = true → feature.IsBare) :
    (feature.addContainer container).headings =
      feature.headings ++ container.headings := by
  unfold addContainer
  split
  · next hbackground =>
      obtain ⟨hbackgrounds, hscenarios⟩ := hbare hbackground
      simp [headings, heading, containers, hbackgrounds, hscenarios]
  · simp [headings, heading, containers]

namespace Phase

/-- The headings of everything that was read. -/
def headings (phase : Phase) : List Heading :=
  (phase.feature?.map Feature.headings).getD []

/-- The nodes of everything that was read. -/
def nodes (phase : Phase) : List Node :=
  phase.headings.flatMap Heading.nodes

variable {node : Node} {line : Nat} {kind : LineKind} {phase next : Phase}
variable {feature : Feature} {container : Container}

/-- Everything behind the first keyword has a last heading. -/
theorem eq_awaiting_or_headings (phase : Phase) :
    phase = .awaiting ∨ ∃ front last, phase.headings = front ++ [last] := by
  rcases hclosed : phase.feature? with _ | closed
  · exact .inl (feature?_eq_none.mp hclosed)
  · refine .inr ?_
    rw [headings, hclosed]
    exact ⟨_, _, (List.dropLast_concat_getLast (List.cons_ne_nil _ _)).symm⟩

theorem headings_of_container? (hsound : phase.Sound)
    (hcontainer : phase.container? = some (feature, container)) :
    phase.headings = feature.headings ++ container.headings := by
  cases phase with
  | awaiting | header => cases hcontainer
  | body feature inner open? =>
      obtain ⟨rfl, rfl⟩ := Prod.mk.inj (Option.some.inj hcontainer)
      exact Feature.headings_addContainer
        (by rw [Container.isBackground_addStep]; exact hsound.2.1)
  | examples feature inner group =>
      obtain ⟨rfl, rfl⟩ := Prod.mk.inj (Option.some.inj hcontainer)
      have houtline : (inner.addGroup group).isOutline = true := by
        rw [Container.isOutline_addGroup]
        exact hsound.2
      refine Feature.headings_addContainer fun hbackground => ?_
      rw [Container.isBackground_of_isOutline houtline] at hbackground
      cases hbackground

/-- The open step is the last heading. -/
theorem headings_body_some {openStep : OpenStep}
    (hsound : (body feature container (some openStep)).Sound) :
    (body feature container (some openStep)).headings =
      (feature.headings ++ container.headings) ++ [openStep.step.heading] := by
  rw [headings_of_container? hsound rfl, Container.headings_addStep hsound.2.2.1,
    List.append_assoc]

/-- A container without steps is the last heading. -/
theorem headings_body_none (hsound : (body feature container none).Sound) :
    (body feature container none).headings =
      feature.headings ++ [container.heading] := by
  rw [headings_of_container? hsound rfl, Container.addStep, Container.headings,
    hsound.2.2.2 rfl, hsound.2.2.1]
  rfl

/-- The open group is the last heading. -/
theorem headings_examples {group : Examples}
    (hsound : (examples feature container group).Sound) :
    (examples feature container group).headings =
      (feature.headings ++ container.headings) ++ [group.heading] := by
  rw [headings_of_container? hsound rfl, Container.headings_addGroup hsound.2,
    List.append_assoc]

/-! ## What a move does to the headings -/

/-- A keyword appends a heading that has nothing of its own yet. -/
theorem Opens.headings_keyword {opening : KeywordLine} (hsound : phase.Sound)
    (hopens : phase.Opens node (.keyword opening) next) :
    next.headings = phase.headings ++ [opening.heading node] := by
  have hnext := hopens.sound hsound
  rcases opening with ⟨role, keyword, text⟩
  cases hopens with
  | feature hrole =>
      obtain rfl := hrole
      rfl
  | background hrole =>
      obtain rfl := hrole
      exact headings_body_none hnext
  | container _ hclosed hrole =>
      rw [headings_body_none hnext, headings, hclosed,
        ← KeywordLine.heading_container node hrole]
      rfl
  | examples _ hcontainer _ hrole =>
      obtain rfl := hrole
      rw [headings_examples hnext, headings_of_container? hsound hcontainer]
      rfl
  | step _ hrole =>
      obtain rfl := hrole
      rw [headings_body_some hnext, headings_of_container? hsound rfl]
      rfl

/-- A row goes to the last heading. -/
theorem Opens.headings_tableRow {raw : Text} (hsound : phase.Sound)
    (hopens : phase.Opens node (.tableRow raw) next) :
    ∃ front last cells, Cells.decode raw = .ok cells ∧
      phase.headings = front ++ [last] ∧
      next.headings =
        front ++ [{ last with rows := last.rows ++ [⟨node, cells⟩] }] := by
  have hnext := hopens.sound hsound
  cases hopens with
  | stepRow _ hcells =>
      exact ⟨_, _, _, hcells, headings_body_some hsound, headings_body_some hnext⟩
  | groupRow hcells =>
      exact ⟨_, _, _, hcells, headings_examples hsound, headings_examples hnext⟩

/-- A text is one more line of the last heading's description. -/
theorem Extends.headings_text {text : Text} (hsound : phase.Sound)
    (hextends : phase.Extends line (.text text) next) :
    ∃ front last, phase.headings = front ++ [last] ∧
      next.headings =
        front ++ [{ last with description := last.description.addLine text }] := by
  have hnext := hextends.sound hsound
  cases hextends with
  | pass hkind => exact hkind.elim
  | featureText =>
      refine ⟨[], _, Feature.IsBare.headings hsound, Feature.IsBare.headings ?_⟩
      exact hsound
  | containerText =>
      exact ⟨_, _, headings_body_none hsound, headings_body_none hnext⟩
  | groupText =>
      exact ⟨_, _, headings_examples hsound, headings_examples hnext⟩

/-- Whatever opens a construct adds one node. -/
theorem Opens.nodes (hsound : phase.Sound) (hopens : phase.Opens node kind next) :
    next.nodes = phase.nodes ++ [node] := by
  rcases kind with opening | _ | _ | raw | _ | _ | _ | _
  case keyword =>
    rw [Phase.nodes, hopens.headings_keyword hsound, List.flatMap_append, Phase.nodes]
    rfl
  case tableRow =>
    obtain ⟨front, last, cells, -, hheadings, hnext⟩ := hopens.headings_tableRow hsound
    rw [Phase.nodes, hnext, Phase.nodes, hheadings]
    simp [Heading.nodes]
  all_goals cases hopens

/-- What extends a construct adds no node. -/
theorem Extends.nodes (hsound : phase.Sound) (hextends : phase.Extends line kind next) :
    next.nodes = phase.nodes := by
  have hnext := hextends.sound hsound
  cases hextends with
  | pass | featureText => rfl
  | containerText =>
      rw [Phase.nodes, headings_body_none hnext, Phase.nodes, headings_body_none hsound]
      simp [Heading.nodes, Container.heading]
  | groupText =>
      rw [Phase.nodes, headings_examples hnext, Phase.nodes, headings_examples hsound]
      simp [Heading.nodes, Examples.heading]
  | opening | content =>
      rw [Phase.nodes, headings_body_some hnext, Phase.nodes, headings_body_some hsound]
  | closing =>
      rw [Phase.nodes, headings_body_some hnext, Phase.nodes, headings_body_some hsound]
      simp [Heading.nodes, Step.heading]

theorem nodes_eq_nil_iff : phase.nodes = [] ↔ phase = .awaiting := by
  constructor
  · intro hnil
    rcases phase.eq_awaiting_or_headings with hawaiting | ⟨front, last, hheadings⟩
    · exact hawaiting
    · rw [nodes, hheadings] at hnil
      simp [Heading.nodes] at hnil
  · rintro rfl
    rfl

end Phase

/-- A document that is read comes out of a run that ends outside doc strings with the
headings of the document. -/
theorem exists_run_of_parse {config : Config} {uri document : Text} {feature : Feature}
    (hparse : parse config uri document = .ok feature) :
    ∃ final, (Assembly.start uri config.trailingComments).feedAll
          (scan config.keywords document).tokens = .ok final ∧
      final.phase.doc? = none ∧ final.phase.headings = feature.headings := by
  obtain ⟨-, final, hrun, hfinish⟩ := parse_eq_ok_iff.mp hparse
  obtain ⟨hdoc, closed, hclosed, hfeature⟩ := Assembly.finish_eq_ok_iff.mp hfinish
  refine ⟨final, hrun, hdoc, ?_⟩
  rw [hfeature, Feature.headings_settle, Phase.headings, hclosed]
  rfl

end Gherkin
