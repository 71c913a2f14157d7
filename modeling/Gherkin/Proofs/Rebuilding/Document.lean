import Gherkin.Proofs.Assembly.Sound
import Gherkin.Proofs.Rebuilding.Steps

/-!
# Documents are rebuilt from their kinds

Groups of examples, containers and the feature itself are rebuilt like the steps that
they hold.  A container is opened without its groups, which are added behind its steps,
and it ends up in the list that it came from.  The comments at the end are pending when
everything else is in its place.
-/

namespace Gherkin

variable {uri : Text} {phase : Phase} {feature : Feature} {container : Container}

/-! ## Groups of examples -/

/-- Rows as wide as those before them are read back into the open group. -/
theorem reaches_groupRows (feature : Feature) (container : Container) (group : Examples)
    {rows : List Row} (huri : ∀ row ∈ rows, row.uri = uri)
    (hcells : ∀ row ∈ rows, Cells.AreTrimmed row.cells)
    (heven : Row.AreEven group.rows rows) :
    Phase.Reaches uri (.examples feature container group) (rows.flatMap Row.kinds)
      (.examples feature container
        { group with rows := group.rows ++ rows.map (Row.mapLines noLine) }) := by
  induction rows generalizing group with
  | nil =>
      rw [List.map_nil, List.append_nil]
      exact .refl _ _
  | cons row rows ih =>
      have hdecode := Cells.decode_encode (hcells row List.mem_cons_self)
      have hopens : Phase.Opens (row.toNode.mapLines noLine)
          (.examples feature container group) (.tableRow (Cells.encode row.cells)) _ :=
        .groupRow hdecode fun first hfirst =>
          heven.head first (List.mem_of_mem_head? hfirst)
      let read : Examples := { group with rows := group.rows ++ [row.mapLines noLine] }
      have hrestEven : Row.AreEven read.rows rows := by
        apply heven.tail
        intro other hother
        rcases List.mem_append.mp hother with hfront | hlast
        · exact .inl hfront
        · rw [List.mem_singleton.mp hlast]
          exact .inr rfl
      have hrest := ih read
        (fun other hother => huri other (List.mem_cons_of_mem row hother))
        (fun other hother => hcells other (List.mem_cons_of_mem row hother)) hrestEven
      rw [List.append_assoc] at hrest
      exact (hopens.reaches (huri row List.mem_cons_self)).append hrest

/-- A written group is read back behind the groups before it. -/
theorem Examples.reaches {group : Examples} (hgroup : group.heading.IsRebuilt uri)
    (hdoc : phase.doc? = none)
    (hcontainer : phase.container? = some (feature, container))
    (houtline : container.isOutline = true) :
    phase.Reaches uri group.kinds
      (.examples feature container (group.mapLines noLine)) := by
  let opening : KeywordLine := ⟨.examples, group.keyword, group.name⟩
  let opened : Examples := opening.examples (group.toNode.mapLines noLine)
  have hopens : phase.Opens (group.toNode.mapLines noLine) (.keyword opening)
      (.examples feature container opened) := .examples hdoc hcontainer houtline rfl
  let place (description : Text) : Phase :=
    .examples feature container { opened with description := description }
  have hdescription := reaches_description uri place (fun _ _ => .groupText rfl)
    hgroup.description
  have hrows := reaches_groupRows feature container
    { opened with description := group.description } hgroup.uri_rows hgroup.cells
    hgroup.even
  have huri := hgroup.uri_eq group.toNode List.mem_cons_self
  have hkinds := (hopens.reaches huri).append (hdescription.append hrows)
  rw [List.append_assoc] at hkinds
  exact hkinds

theorem reaches_groups (container : Container) {before : List Examples}
    (hdoc : phase.doc? = none)
    (hcontainer : phase.container? = some (feature, container))
    (hkind : container.kind = .outline before) {groups : List Examples}
    (hgroups : ∀ group ∈ groups, group.heading.IsRebuilt uri) :
    ∃ last : Phase, last.doc? = none ∧
      last.container? = some (feature,
        { container with
          kind := .outline (before ++ groups.map (Examples.mapLines noLine)) }) ∧
      phase.Reaches uri (groups.flatMap Examples.kinds) last := by
  induction groups generalizing phase container before with
  | nil =>
      refine ⟨phase, hdoc, ?_, .refl _ _⟩
      rw [hcontainer, List.map_nil, List.append_nil, ← hkind]
  | cons group groups ih =>
      have houtline : container.isOutline = true := by rw [Container.isOutline, hkind]
      have hgroup :=
        Examples.reaches (hgroups group List.mem_cons_self) hdoc hcontainer houtline
      let read : Container := container.addGroup (group.mapLines noLine)
      have hread : read =
          { container with kind := .outline (before ++ [group.mapLines noLine]) } := by
        rw [show read = container.addGroup (group.mapLines noLine) from rfl,
          Container.addGroup, hkind]
      have hnext : (Phase.examples feature container
          (group.mapLines noLine)).container? =
          some (feature, read) := rfl
      obtain ⟨last, hlast, hlastContainer, hrest⟩ := ih read rfl hnext (by rw [hread])
        fun other hother => hgroups other (List.mem_cons_of_mem group hother)
      refine ⟨last, hlast, ?_, hgroup.append hrest⟩
      rw [hlastContainer, hread, List.append_assoc]
      rfl

/-! ## Containers -/

/-- The kind of a container as it is opened. -/
def ContainerKind.emptied : ContainerKind → ContainerKind
  | outline _ => .outline []
  | kind => kind

/-- A container is opened by its role.  A background can only be the first one. -/
theorem Phase.Opens.of_container (node : Node) (opening : KeywordLine)
    {kind : ContainerKind} (hdoc : phase.doc? = none)
    (hclosed : phase.feature? = some feature) (hrole : opening.role = kind.role)
    (hbackground : kind = .background → phase = .header feature) :
    phase.Opens node (.keyword opening)
      (.body feature (opening.container node kind.emptied) none) := by
  cases kind with
  | background =>
      rw [hbackground rfl]
      exact .background hrole
  | scenario => exact .container hdoc hclosed (by rw [hrole]; rfl)
  | outline groups => exact .container hdoc hclosed (by rw [hrole]; rfl)

/-- The groups of a container are read back behind its steps. -/
theorem reaches_containerGroups {built : Container} (hdoc : phase.doc? = none)
    (hbuilt : phase.container? =
      some (feature, { built with kind := container.kind.emptied }))
    (hgroups : ∀ group ∈ container.groups, group.heading.IsRebuilt uri) :
    ∃ last : Phase, last.doc? = none ∧
      last.container? =
        some (feature, { built with kind := container.kind.mapLines noLine }) ∧
      phase.Reaches uri (container.groups.flatMap Examples.kinds) last := by
  rcases container with ⟨node, _ | _ | groups, keyword, name, description, steps⟩
  case outline => exact reaches_groups _ hdoc hbuilt rfl hgroups
  all_goals exact ⟨phase, hdoc, hbuilt, .refl _ _⟩

/-- A written container is read back behind the containers before it. -/
theorem Container.reaches (hdoc : phase.doc? = none)
    (hclosed : phase.feature? = some feature)
    (hbackground : container.isBackground = true → phase = .header feature)
    (hheadings : ∀ heading ∈ container.headings, heading.IsRebuilt uri) :
    ∃ last : Phase, last.doc? = none ∧
      last.feature? = some (feature.addContainer (container.mapLines noLine)) ∧
      phase.Reaches uri container.kinds last := by
  have hcontainer := hheadings container.heading List.mem_cons_self
  have hsteps : ∀ step ∈ container.steps, step.heading.IsRebuilt uri :=
    fun step hstep => hheadings _ (by simp [headings, List.mem_map_of_mem hstep])
  have hgroups : ∀ group ∈ container.groups, group.heading.IsRebuilt uri :=
    fun group hgroup => hheadings _ (by simp [headings, List.mem_map_of_mem hgroup])
  let opening : KeywordLine := ⟨container.kind.role, container.keyword, container.name⟩
  let opened : Container :=
    opening.container (container.toNode.mapLines noLine) container.kind.emptied
  have hopens : phase.Opens (container.toNode.mapLines noLine) (.keyword opening)
      (.body feature opened none) :=
    .of_container _ opening hdoc hclosed rfl fun hkind =>
      hbackground (by rw [isBackground, hkind])
  let place (description : Text) : Phase :=
    .body feature { opened with description := description } none
  have hdescription := reaches_description uri place (fun _ _ => .containerText rfl)
    hcontainer.description
  obtain ⟨before, last?, hlast, hbefore, hstepKinds⟩ := reaches_steps feature
    { opened with description := container.description } none rfl hsteps
  let built : Container :=
    { opened with
      description := container.description
      steps := container.steps.map (Step.mapLines noLine) }
  have hbuilt : (Phase.body feature before last?).container? =
      some (feature, { built with kind := container.kind.emptied }) :=
    congrArg (fun inner => some (feature, inner)) hbefore
  obtain ⟨last, hlast, hlastContainer, hgroupKinds⟩ :=
    reaches_containerGroups hlast hbuilt hgroups
  refine ⟨last, hlast, Phase.feature?_of_container? hlastContainer, ?_⟩
  have huri := hcontainer.uri_eq container.toNode List.mem_cons_self
  have hinner := (hdescription.append hstepKinds).append hgroupKinds
  have hkinds := (hopens.reaches huri).append hinner
  rw [List.append_assoc] at hkinds
  exact hkinds

theorem reaches_scenarios (feature : Feature) (hdoc : phase.doc? = none)
    (hclosed : phase.feature? = some feature) {scenarios : List Container}
    (hscenarios : ∀ scenario ∈ scenarios, scenario.isBackground = false)
    (hheadings : ∀ scenario ∈ scenarios, ∀ heading ∈ scenario.headings,
      heading.IsRebuilt uri) :
    ∃ last : Phase, last.doc? = none ∧
      last.feature? = some
        { feature with
          scenarios := feature.scenarios ++
            scenarios.map (Container.mapLines noLine) } ∧
      phase.Reaches uri (scenarios.flatMap Container.kinds) last := by
  induction scenarios generalizing phase feature with
  | nil =>
      refine ⟨phase, hdoc, ?_, .refl _ _⟩
      rw [hclosed, List.map_nil, List.append_nil]
  | cons scenario scenarios ih =>
      have hscenario := hscenarios scenario List.mem_cons_self
      have hbackground : scenario.isBackground = true → phase = .header feature := by
        rw [hscenario]
        exact nofun
      obtain ⟨next, hnext, hnextClosed, hkinds⟩ := Container.reaches hdoc hclosed
        hbackground (hheadings scenario List.mem_cons_self)
      have hadded : feature.addContainer (scenario.mapLines noLine) =
          { feature with
            scenarios := feature.scenarios ++ [scenario.mapLines noLine] } := by
        rw [Feature.addContainer, Container.isBackground_mapLines, hscenario,
          if_neg Bool.false_ne_true]
      obtain ⟨last, hlast, hlastClosed, hrest⟩ := ih _ hnext hnextClosed
        (fun other hother => hscenarios other (List.mem_cons_of_mem scenario hother))
        (fun other hother => hheadings other (List.mem_cons_of_mem scenario hother))
      refine ⟨last, hlast, ?_, hkinds.append hrest⟩
      rw [hlastClosed, hadded, List.append_assoc]
      rfl

/-- The backgrounds of a document are read back in front of its scenarios. -/
theorem reaches_backgrounds (feature : Feature) {backgrounds : List Container}
    (hempty : feature.backgrounds = []) (hlength : backgrounds.length ≤ 1)
    (hbackgrounds : ∀ background ∈ backgrounds, background.isBackground = true)
    (hheadings : ∀ background ∈ backgrounds, ∀ heading ∈ background.headings,
      heading.IsRebuilt uri) :
    ∃ last : Phase, last.doc? = none ∧
      last.feature? = some
        { feature with backgrounds := backgrounds.map (Container.mapLines noLine) } ∧
      Phase.Reaches uri (.header feature)
        (backgrounds.flatMap Container.kinds) last := by
  match backgrounds with
  | [] =>
      refine ⟨.header feature, rfl, ?_, .refl _ _⟩
      rw [List.map_nil, ← hempty]
      rfl
  | [background] =>
      obtain ⟨last, hlast, hclosed, hkinds⟩ := Container.reaches rfl rfl (fun _ => rfl)
        (hheadings background List.mem_cons_self)
      refine ⟨last, hlast, ?_, hkinds.append (.refl _ _)⟩
      rw [hclosed, Feature.addContainer, Container.isBackground_mapLines,
        hbackgrounds background List.mem_cons_self, if_pos rfl, hempty]
      rfl
  | _ :: _ :: _ => simp at hlength

/-! ## The feature -/

/-- A written document is read back from its kinds. -/
theorem Feature.reaches {feature : Feature} (hsorted : feature.Sorted)
    (hheadings : ∀ heading ∈ feature.headings, heading.IsRebuilt uri) :
    ∃ final, (Assembly.start uri .attach).Reaches feature.kinds final ∧
      final.finish = .ok feature.eraseLines := by
  have hfeature := hheadings feature.heading List.mem_cons_self
  have hcontainers : ∀ container ∈ feature.containers, ∀ heading ∈ container.headings,
      heading.IsRebuilt uri := fun container hcontainer heading hheading =>
    hheadings heading
      (List.mem_cons_of_mem _ (List.mem_flatMap.mpr ⟨container, hcontainer, hheading⟩))
  let opening : KeywordLine := ⟨.feature, feature.keyword, feature.name⟩
  let opened : Feature := opening.feature (feature.toNode.mapLines noLine)
  have hopens : Phase.awaiting.Opens (feature.toNode.mapLines noLine) (.keyword opening)
      (.header opened) := .feature rfl
  let place (description : Text) : Phase :=
    .header { opened with description := description }
  have hdescription := reaches_description uri place (fun _ _ => .featureText)
    hfeature.description
  obtain ⟨behind, hbehind, hbehindClosed, hbackgrounds⟩ := reaches_backgrounds
    { opened with description := feature.description } rfl
    hsorted.length_backgrounds_le hsorted.isBackground_of_mem
    fun background hbackground =>
      hcontainers background (List.mem_append_left _ hbackground)
  obtain ⟨last, hlast, hclosed, hscenarios⟩ := reaches_scenarios _ hbehind hbehindClosed
    hsorted.not_isBackground_of_mem
    fun scenario hscenario => hcontainers scenario (List.mem_append_right _ hscenario)
  have htrailing := (last.assembly uri).reaches_comments hlast rfl
      feature.trailingComments
  have huri := hfeature.uri_eq feature.toNode List.mem_cons_self
  have hinner := Assembly.Reaches.append
    (hdescription.append (hbackgrounds.append hscenarios)) htrailing
  have hkinds := Assembly.Reaches.append (hopens.reaches huri) hinner
  rw [List.append_assoc, ← List.flatMap_append] at hkinds
  exact ⟨_, hkinds, Assembly.finish_eq_ok_iff.mpr ⟨hlast, _, hclosed, rfl⟩⟩

end Gherkin
