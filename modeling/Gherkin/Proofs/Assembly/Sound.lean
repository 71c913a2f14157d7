import Gherkin.Proofs.Assembly.Move

/-!
# Sound phases

The phases that a run can reach are narrower than their type.  A background comes
first and is the only one, a container that has no open step has no step at all,
and groups of examples are open in an outline only.  This is what makes closing a
construct append it behind everything that was closed before.
-/

namespace Gherkin

/-- At most one background, in the list that is meant for it. -/
structure Feature.Sorted (feature : Feature) : Prop where
  length_backgrounds_le : feature.backgrounds.length ≤ 1
  isBackground_of_mem : ∀ container ∈ feature.backgrounds, container.isBackground = true
  not_isBackground_of_mem :
    ∀ container ∈ feature.scenarios, container.isBackground = false

/-- A feature without containers. -/
def Feature.IsBare (feature : Feature) : Prop :=
  feature.backgrounds = [] ∧ feature.scenarios = []

theorem Feature.IsBare.sorted {feature : Feature} (hbare : feature.IsBare) :
    feature.Sorted where
  length_backgrounds_le := by simp [hbare.1]
  isBackground_of_mem := by simp [hbare.1]
  not_isBackground_of_mem := by simp [hbare.2]

/-- A background goes into a bare feature only. -/
theorem Feature.Sorted.addContainer {feature : Feature} {container : Container}
    (hsorted : feature.Sorted)
    (hbare : container.isBackground = true → feature.IsBare) :
    (feature.addContainer container).Sorted := by
  unfold Feature.addContainer
  split
  · next hbackground =>
      obtain ⟨hbackgrounds, hscenarios⟩ := hbare hbackground
      constructor <;> simp [hbackgrounds, hscenarios, hbackground]
  · next hscenario =>
      refine ⟨hsorted.length_backgrounds_le, hsorted.isBackground_of_mem, ?_⟩
      intro other hother
      rcases List.mem_append.mp hother with hother | hother
      · exact hsorted.not_isBackground_of_mem other hother
      · rw [List.mem_singleton.mp hother]
        exact Bool.eq_false_iff.mpr hscenario

namespace Container

theorem kind_addStep (container : Container) (open? : Option OpenStep) :
    (container.addStep open?).kind = container.kind := by
  cases open? <;> rfl

theorem isOutline_addStep (container : Container) (open? : Option OpenStep) :
    (container.addStep open?).isOutline = container.isOutline := by
  rw [isOutline, kind_addStep, isOutline]

theorem isBackground_addStep (container : Container) (open? : Option OpenStep) :
    (container.addStep open?).isBackground = container.isBackground := by
  rw [isBackground, kind_addStep, isBackground]

theorem groups_addStep (container : Container) (open? : Option OpenStep) :
    (container.addStep open?).groups = container.groups := by
  rw [groups, kind_addStep, groups]

theorem isOutline_addGroup (container : Container) (group : Examples) :
    (container.addGroup group).isOutline = container.isOutline := by
  rcases container with ⟨node, kind, keyword, name, description, steps⟩
  cases kind <;> rfl

theorem isBackground_of_isOutline {container : Container}
    (houtline : container.isOutline = true) :
    container.isBackground = false := by
  rcases container with ⟨node, kind, keyword, name, description, steps⟩
  cases kind <;> first | rfl | cases houtline

end Container

namespace Phase

/-- What holds of the phases that a run can reach. -/
def Sound : Phase → Prop
  | awaiting => True
  | header feature => feature.IsBare
  | body feature container open? =>
      feature.Sorted ∧ (container.isBackground = true → feature.IsBare) ∧
        container.groups = [] ∧ (open? = none → container.steps = [])
  | examples feature container _ => feature.Sorted ∧ container.isOutline = true

variable {node : Node} {line : Nat} {kind : LineKind} {phase next : Phase}

/-- Everything open is put where it belongs. -/
theorem Sound.sorted {closed : Feature} (hsound : phase.Sound)
    (hclosed : phase.feature? = some closed) : closed.Sorted := by
  cases phase with
  | awaiting => cases hclosed
  | header feature =>
      obtain rfl := Option.some.inj hclosed
      exact hsound.sorted
  | body feature container open? =>
      obtain rfl := Option.some.inj hclosed
      obtain ⟨hsorted, hbare, -⟩ := hsound
      exact hsorted.addContainer (by rwa [Container.isBackground_addStep])
  | examples feature container group =>
      obtain rfl := Option.some.inj hclosed
      obtain ⟨hsorted, houtline⟩ := hsound
      refine hsorted.addContainer fun hbackground => ?_
      rw [Container.isBackground_of_isOutline (by rwa [Container.isOutline_addGroup])]
        at hbackground
      cases hbackground

theorem Sound.container?_sorted {feature : Feature} {container : Container}
    (hsound : phase.Sound)
    (hcontainer : phase.container? = some (feature, container)) : feature.Sorted := by
  cases phase with
  | awaiting | header => cases hcontainer
  | body | examples =>
      obtain ⟨rfl, -⟩ := Prod.mk.inj (Option.some.inj hcontainer)
      exact hsound.1

theorem Opens.sound (hopens : phase.Opens node kind next) (hsound : phase.Sound) :
    next.Sound := by
  cases hopens with
  | feature => exact ⟨rfl, rfl⟩
  | background =>
      exact ⟨Feature.IsBare.sorted hsound, fun _ => hsound, rfl, fun _ => rfl⟩
  | @container _ _ opening kind _ hclosed hrole =>
      have hkind : kind = .scenario ∨ kind = .outline [] := by
        unfold Role.containerKind? at hrole
        split at hrole <;> simp_all
      refine ⟨hsound.sorted hclosed, ?_, ?_, fun _ => rfl⟩
      · rcases hkind with rfl | rfl <;> exact nofun
      · rcases hkind with rfl | rfl <;> rfl
  | examples _ hcontainer houtline _ =>
      exact ⟨hsound.container?_sorted hcontainer, houtline⟩
  | step =>
      obtain ⟨hsorted, hbare, hgroups, -⟩ := hsound
      refine ⟨hsorted, ?_, ?_, nofun⟩
      · rwa [Container.isBackground_addStep]
      · rwa [Container.groups_addStep]
  | stepRow =>
      obtain ⟨hsorted, hbare, hgroups, -⟩ := hsound
      exact ⟨hsorted, hbare, hgroups, nofun⟩
  | groupRow => exact hsound

theorem Extends.sound (hextends : phase.Extends line kind next) (hsound : phase.Sound) :
    next.Sound := by
  cases hextends with
  | pass | featureText | groupText | containerText => exact hsound
  | opening | content | closing =>
      obtain ⟨hsorted, hbare, hgroups, -⟩ := hsound
      exact ⟨hsorted, hbare, hgroups, nofun⟩

end Phase

theorem Assembly.Move.sound {assembly next : Assembly} {token : Token}
    (hmove : assembly.Move token next) (hsound : assembly.phase.Sound) :
    next.phase.Sound := by
  cases hmove with
  | annotate => exact hsound
  | opens hopens => exact hopens.sound hsound
  | extend hextends => exact hextends.sound hsound

theorem Assembly.sound_of_feedAll {uri : Text} {policy : TrailingComments}
    {tokens : List Token}
    {final : Assembly} (hrun : (start uri policy).feedAll tokens = .ok final) :
    final.phase.Sound := by
  let invariant (_ : List Token) (assembly : Assembly) : Prop := assembly.phase.Sound
  have hmove : ∀ front token assembly next, token ∈ tokens → invariant front assembly →
      assembly.Move token next → invariant (front ++ [token]) next :=
    fun _ _ _ _ _ hsound hmove => hmove.sound hsound
  exact feedAll_induction hrun trivial hmove

end Gherkin
