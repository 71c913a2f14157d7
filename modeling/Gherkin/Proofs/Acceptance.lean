import Gherkin.Proofs.Assembly.Sound
import Gherkin.Proofs.Grammar

/-!
# Accepted documents

An assembly accepts exactly the words of the grammar.  Every phase stands for a
place in the grammar, and what may still come there is a language of its own, the
*rest* of the phase.  A line can be taken off the rest of a phase exactly if the
phase has a move for it, and the move ends in a phase whose rest is what remains.
The tokens that are accepted to the end are therefore the words of the rest they
start from.
-/

namespace Gherkin

open Grammar LineKind
open scoped Computability

namespace Container

/-- What may come behind the steps of a container. -/
def rest (container : Container) : Language LineKind :=
  if container.isOutline then Grammar.groups * containers else containers

@[simp]
theorem rest_addStep (container : Container) (open? : Option OpenStep) :
    (container.addStep open?).rest = container.rest := by
  rw [rest, rest, isOutline_addStep]

@[simp]
theorem rest_addGroup (container : Container) (group : Examples) :
    (container.addGroup group).rest = container.rest := by
  rw [rest, rest, isOutline_addGroup]

variable {container : Container} {kind : LineKind} {word : List LineKind}

/-- Only an outline has groups of examples in front of the next container. -/
theorem cons_mem_rest :
    kind :: word ∈ container.rest ↔
      (container.isOutline = true ∧ kind.IsKeyword .examples ∧
          word ∈ gap * (texts * (table * container.rest))) ∨
        kind :: word ∈ containers := by
  unfold rest
  split
  · next houtline => simp only [houtline, true_and, cons_mem_groups_mul]
  · next houtline => simp only [houtline, Bool.false_eq_true, false_and, false_or]

theorem mem_rest_of_mem_containers (hword : word ∈ containers) :
    word ∈ container.rest := by
  unfold rest
  split
  · exact mem_mul_of_nil_mem nil_mem_groups hword
  · exact hword

end Container

namespace Phase

/-- What may still come in a group of examples, up to the `rest` of its outline. -/
def restOfGroup (rest : Language LineKind) : List Row → Language LineKind
  | [] => gap * (texts * (table * rest))
  | first :: _ => gap * (tableOf first.cells.length * rest)

/-- What may still come in a phase. -/
def rest : Phase → Language LineKind
  | awaiting => document
  | header _ => gap * featureBody
  | body _ container none =>
      gap * ((if container.steps = [] then texts else 1) * (steps * container.rest))
  | body _ container (some ⟨_, .idle⟩) => gap * (stepBody * (steps * container.rest))
  | body _ container (some ⟨_, .table first⟩) =>
      gap * (tableOf first.cells.length * (docTables * (steps * container.rest)))
  | body _ container (some ⟨_, .doc doc⟩) =>
      (line IsContent)∗ *
        (spaced (IsFence doc.opening.fence) * (stepBody * (steps * container.rest)))
  | examples _ container group => restOfGroup container.rest group.rows

/-- The phase has a move for the line, and `word` is in the rest of the phase that
the move ends in. -/
def Leads (phase : Phase) (node : Node) (kind : LineKind)
    (word : List LineKind) : Prop :=
  (phase.doc? = none ∧ kind.IsAnnotation ∧ word ∈ phase.rest) ∨
    (∃ next, phase.Opens node kind next ∧ word ∈ next.rest) ∨
    ∃ next, phase.Extends node.line kind next ∧ word ∈ next.rest

variable {phase : Phase} {node : Node} {kind : LineKind} {word : List LineKind}
variable {feature : Feature} {container : Container}

/-! ### Every line of a rest is a move -/

theorem leads_of_mem_containers (hdoc : phase.doc? = none)
    (hclosed : phase.feature? = some feature) (hword : kind :: word ∈ containers) :
    phase.Leads node kind word := by
  rw [cons_mem_containers] at hword
  rcases hword with ⟨hkind, hword⟩ | ⟨hkind, hword⟩
  · obtain ⟨opening, rfl, hrole⟩ := isKeyword_iff.mp hkind
    refine .inr (.inl ⟨_, .container hdoc hclosed (by rw [hrole]; rfl), ?_⟩)
    exact hword
  · obtain ⟨opening, rfl, hrole⟩ := isKeyword_iff.mp hkind
    refine .inr (.inl ⟨_, .container hdoc hclosed (by rw [hrole]; rfl), ?_⟩)
    exact hword

theorem leads_of_mem_containerRest (hdoc : phase.doc? = none)
    (hcontainer : phase.container? = some (feature, container))
    (hword : kind :: word ∈ container.rest) : phase.Leads node kind word := by
  rw [Container.cons_mem_rest] at hword
  rcases hword with ⟨houtline, hkind, hword⟩ | hword
  · obtain ⟨opening, rfl, hrole⟩ := isKeyword_iff.mp hkind
    exact .inr (.inl ⟨_, .examples hdoc hcontainer houtline hrole, hword⟩)
  · obtain ⟨closed, hclosed⟩ : ∃ closed, phase.feature? = some closed := by
      cases phase <;> first | exact ⟨_, rfl⟩ | cases hcontainer
    exact leads_of_mem_containers hdoc hclosed hword

theorem leads_of_mem_steps {open? : Option OpenStep}
    (hdoc : (body feature container open?).doc? = none)
    (hword : kind :: word ∈ steps * container.rest) :
    (body feature container open?).Leads node kind word := by
  rw [cons_mem_steps_mul] at hword
  rcases hword with ⟨hkind, hword⟩ | hword
  · obtain ⟨opening, step, rfl, hrole⟩ := isStep_iff.mp hkind
    refine .inr (.inl ⟨_, .step hdoc hrole, ?_⟩)
    rwa [rest, Container.rest_addStep]
  · exact leads_of_mem_containerRest hdoc rfl (by rwa [Container.rest_addStep])

theorem leads_of_mem_docTables {step : Step} {slot : Slot} (hslot : slot.IsClosed)
    (hword : kind :: word ∈ docTables * (steps * container.rest)) :
    (body feature container (some ⟨step, slot⟩)).Leads node kind word := by
  rw [cons_mem_docTables_mul] at hword
  rcases hword with ⟨fence, hkind, hword⟩ | hword
  · obtain ⟨opening, rfl, rfl⟩ := isFence_iff.mp hkind
    exact .inr (.inr ⟨_, .opening hslot, hword⟩)
  · refine leads_of_mem_steps ?_ hword
    cases slot <;> first | rfl | exact hslot.elim

theorem leads_of_mem_tableOf {step : Step} {first : Row}
    (hword : kind :: word ∈ tableOf first.cells.length *
      (docTables * (steps * container.rest))) :
    (body feature container (some ⟨step, .table first⟩)).Leads node kind word := by
  rw [cons_mem_tableOf_mul] at hword
  rcases hword with ⟨hkind, hword⟩ | hword
  · obtain ⟨raw, cells, rfl, hcells, hwidth⟩ := isRow_iff.mp hkind
    refine .inr (.inl ⟨_, .stepRow trivial hcells ?_, hword⟩)
    simp [Slot.first?, hwidth]
  · exact leads_of_mem_docTables trivial hword

theorem leads_of_mem_stepBody {step : Step}
    (hword : kind :: word ∈ stepBody * (steps * container.rest)) :
    (body feature container (some ⟨step, .idle⟩)).Leads node kind word := by
  rw [cons_mem_stepBody_mul] at hword
  rcases hword with ⟨width, hkind, hword⟩ | hword
  · obtain ⟨raw, cells, rfl, hcells, rfl⟩ := isRow_iff.mp hkind
    exact .inr (.inl ⟨_, .stepRow trivial hcells (by simp [Slot.first?]), hword⟩)
  · exact leads_of_mem_docTables trivial hword

theorem leads_of_mem_doc {step : Step} {doc : OpenDoc}
    (hword : kind :: word ∈ (body feature container (some ⟨step, .doc doc⟩)).rest) :
    (body feature container (some ⟨step, .doc doc⟩)).Leads node kind word := by
  rw [rest, cons_mem_kstar_mul, cons_mem_line_mul, cons_mem_spaced_mul] at hword
  rcases hword with ⟨hkind, hword⟩ | ⟨hkind, hword⟩
  · obtain ⟨line, rfl⟩ := isContent_iff.mp hkind
    exact .inr (.inr ⟨_, .content, hword⟩)
  · obtain ⟨closing, rfl, hfence⟩ := isFence_iff.mp hkind
    exact .inr (.inr ⟨_, .closing hfence, hword⟩)

theorem leads_of_mem_document (hword : kind :: word ∈ document) :
    awaiting.Leads node kind word := by
  rw [document, cons_mem_gap_mul, cons_mem_spaced_kstar_mul,
    cons_mem_spaced_mul] at hword
  rcases hword with ⟨hkind, hword⟩ | ⟨hkind, hword⟩ | ⟨hkind, hword⟩
  · exact .inl ⟨rfl, hkind, hword⟩
  · exact .inr (.inr ⟨_, .pass hkind, hword⟩)
  · obtain ⟨opening, rfl, hrole⟩ := isKeyword_iff.mp hkind
    exact .inr (.inl ⟨_, .feature hrole, hword⟩)

theorem leads_of_mem_featureBody (hword : kind :: word ∈ featureBody) :
    (header feature).Leads node kind word := by
  rw [featureBody, cons_mem_texts_mul, cons_mem_background_mul] at hword
  rcases hword with ⟨hkind, hword⟩ | ⟨hkind, hword⟩ | hword
  · obtain ⟨text, rfl⟩ := isText_iff.mp hkind
    exact .inr (.inr ⟨_, .featureText, hword⟩)
  · obtain ⟨opening, rfl, hrole⟩ := isKeyword_iff.mp hkind
    exact .inr (.inl ⟨_, .background hrole, hword⟩)
  · exact leads_of_mem_containers rfl rfl hword

theorem leads_of_mem_containerTexts
    (hword : kind :: word ∈ (if container.steps = [] then texts else 1) *
      (steps * container.rest)) :
    (body feature container none).Leads node kind word := by
  split at hword
  · next hsteps =>
      rw [cons_mem_texts_mul] at hword
      rcases hword with ⟨hkind, hword⟩ | hword
      · obtain ⟨text, rfl⟩ := isText_iff.mp hkind
        refine .inr (.inr ⟨_, .containerText hsteps, ?_⟩)
        rwa [rest, if_pos hsteps]
      · exact leads_of_mem_steps rfl hword
  · rw [one_mul] at hword
    exact leads_of_mem_steps rfl hword

theorem leads_of_mem_examples {group : Examples}
    (hword : kind :: word ∈ (examples feature container group).rest) :
    (examples feature container group).Leads node kind word := by
  have hrest {word : List LineKind} (hword : word ∈ container.rest) :
      word ∈ (container.addGroup group).rest := by
    rwa [Container.rest_addGroup]
  rcases hrows : group.rows with _ | ⟨first, rows⟩
  · rw [rest, hrows, restOfGroup, cons_mem_gap_mul, cons_mem_texts_mul,
      cons_mem_table_mul] at hword
    rcases hword with ⟨hkind, hword⟩ | ⟨hkind, hword⟩ | ⟨width, hkind, hword⟩ | hword
    · exact .inl ⟨rfl, hkind, by rwa [rest, hrows]⟩
    · obtain ⟨text, rfl⟩ := isText_iff.mp hkind
      exact .inr (.inr ⟨_, .groupText hrows, by rwa [rest, hrows]⟩)
    · obtain ⟨raw, cells, rfl, hcells, rfl⟩ := isRow_iff.mp hkind
      refine .inr (.inl ⟨_, .groupRow hcells (by simp [Examples.header?, hrows]), ?_⟩)
      rwa [rest, hrows]
    · exact leads_of_mem_containerRest rfl rfl (hrest hword)
  · rw [rest, hrows, restOfGroup, cons_mem_gap_mul, cons_mem_tableOf_mul] at hword
    rcases hword with ⟨hkind, hword⟩ | ⟨hkind, hword⟩ | hword
    · exact .inl ⟨rfl, hkind, by rwa [rest, hrows]⟩
    · obtain ⟨raw, cells, rfl, hcells, hwidth⟩ := isRow_iff.mp hkind
      refine .inr (.inl ⟨_, .groupRow hcells ?_, by rwa [rest, hrows]⟩)
      simp [Examples.header?, hrows, hwidth]
    · exact leads_of_mem_containerRest rfl rfl (hrest hword)

theorem leads_of_mem_rest (hword : kind :: word ∈ phase.rest) :
    phase.Leads node kind word := by
  match phase with
  | awaiting => exact leads_of_mem_document hword
  | header feature =>
      rcases cons_mem_gap_mul.mp hword with ⟨hkind, hword⟩ | hword
      · exact .inl ⟨rfl, hkind, hword⟩
      · exact leads_of_mem_featureBody hword
  | body feature container none =>
      rcases cons_mem_gap_mul.mp hword with ⟨hkind, hword⟩ | hword
      · exact .inl ⟨rfl, hkind, hword⟩
      · exact leads_of_mem_containerTexts hword
  | body feature container (some ⟨step, .idle⟩) =>
      rcases cons_mem_gap_mul.mp hword with ⟨hkind, hword⟩ | hword
      · exact .inl ⟨rfl, hkind, hword⟩
      · exact leads_of_mem_stepBody hword
  | body feature container (some ⟨step, .table first⟩) =>
      rcases cons_mem_gap_mul.mp hword with ⟨hkind, hword⟩ | hword
      · exact .inl ⟨rfl, hkind, hword⟩
      · exact leads_of_mem_tableOf hword
  | body feature container (some ⟨step, .doc doc⟩) => exact leads_of_mem_doc hword
  | examples feature container group => exact leads_of_mem_examples hword

/-! ### Every move is a line of a rest -/

/-- Everything in front of the steps may be left out. -/
theorem mem_rest_of_mem_steps {open? : Option OpenStep}
    (hdoc : (body feature container open?).doc? = none)
    (hword : word ∈ steps * container.rest) :
    word ∈ (body feature container open?).rest := by
  match open? with
  | none =>
      refine mem_mul_of_nil_mem nil_mem_gap (mem_mul_of_nil_mem ?_ hword)
      split
      · exact nil_mem_texts
      · exact Language.nil_mem_one
  | some ⟨step, .idle⟩ =>
      exact mem_mul_of_nil_mem nil_mem_gap (mem_mul_of_nil_mem nil_mem_stepBody hword)
  | some ⟨step, .table first⟩ =>
      have hdocs := mem_mul_of_nil_mem nil_mem_docTables hword
      exact mem_mul_of_nil_mem nil_mem_gap (mem_mul_of_nil_mem nil_mem_tableOf hdocs)
  | some ⟨step, .doc doc⟩ => cases hdoc

theorem mem_rest_of_mem_containerRest (hdoc : phase.doc? = none)
    (hcontainer : phase.container? = some (feature, container))
    (hword : word ∈ container.rest) : word ∈ phase.rest := by
  cases phase with
  | awaiting | header => cases hcontainer
  | body feature inner open? =>
      obtain ⟨rfl, rfl⟩ := Prod.mk.inj (Option.some.inj hcontainer)
      rw [Container.rest_addStep] at hword
      exact mem_rest_of_mem_steps hdoc (mem_mul_of_nil_mem nil_mem_steps hword)
  | examples feature inner group =>
      obtain ⟨rfl, rfl⟩ := Prod.mk.inj (Option.some.inj hcontainer)
      rw [Container.rest_addGroup] at hword
      rcases hrows : group.rows with _ | ⟨first, rows⟩ <;> rw [rest, hrows]
      · have htable := mem_mul_of_nil_mem nil_mem_table hword
        exact mem_mul_of_nil_mem nil_mem_gap (mem_mul_of_nil_mem nil_mem_texts htable)
      · exact mem_mul_of_nil_mem nil_mem_gap (mem_mul_of_nil_mem nil_mem_tableOf hword)

/-- Further containers may come wherever the feature is open. -/
theorem mem_rest_of_mem_containers (hdoc : phase.doc? = none)
    (hclosed : phase.feature? = some feature) (hword : word ∈ containers) :
    word ∈ phase.rest := by
  have hrest (container : Container) := container.mem_rest_of_mem_containers hword
  cases phase with
  | awaiting => cases hclosed
  | header feature =>
      have hcontainers : word ∈ (1 + background) * containers :=
        mem_mul_of_nil_mem (.inl Language.nil_mem_one) hword
      exact mem_mul_of_nil_mem nil_mem_gap
        (mem_mul_of_nil_mem nil_mem_texts hcontainers)
  | body => exact mem_rest_of_mem_containerRest hdoc rfl (hrest _)
  | examples => exact mem_rest_of_mem_containerRest hdoc rfl (hrest _)

theorem cons_mem_rest_of_isAnnotation (hdoc : phase.doc? = none)
    (hkind : kind.IsAnnotation) (hword : word ∈ phase.rest) :
    kind :: word ∈ phase.rest := by
  match phase with
  | awaiting | header _ => exact cons_mem_gap_mul.mpr (.inl ⟨hkind, hword⟩)
  | body _ _ none => exact cons_mem_gap_mul.mpr (.inl ⟨hkind, hword⟩)
  | body _ _ (some ⟨_, .idle⟩) => exact cons_mem_gap_mul.mpr (.inl ⟨hkind, hword⟩)
  | body _ _ (some ⟨_, .table _⟩) => exact cons_mem_gap_mul.mpr (.inl ⟨hkind, hword⟩)
  | body _ _ (some ⟨_, .doc _⟩) => cases hdoc
  | examples _ _ group =>
      rcases hrows : group.rows with _ | ⟨first, rows⟩ <;>
        rw [rest, hrows] at hword ⊢ <;>
        exact cons_mem_gap_mul.mpr (.inl ⟨hkind, hword⟩)

theorem cons_mem_rest_of_opens {next : Phase} (hopens : phase.Opens node kind next)
    (hword : word ∈ next.rest) : kind :: word ∈ phase.rest := by
  cases hopens with
  | @feature opening hrole =>
      have hkind : (keyword opening).IsKeyword .feature := hrole
      have hfeature := cons_mem_spaced_mul.mpr ⟨hkind, hword⟩
      exact mem_mul_of_nil_mem nil_mem_gap
        (mem_mul_of_nil_mem (Language.nil_mem_kstar _) hfeature)
  | background hrole =>
      refine mem_mul_of_nil_mem nil_mem_gap (mem_mul_of_nil_mem nil_mem_texts ?_)
      exact cons_mem_background_mul.mpr (.inl ⟨hrole, hword⟩)
  | @container _ _ opening _ hdoc hclosed hrole =>
      refine mem_rest_of_mem_containers hdoc hclosed (cons_mem_containers.mpr ?_)
      rcases hscenario : opening.role with _ | _ | _ | _ | _ | _ <;>
        rw [hscenario] at hrole
      case scenario =>
        obtain rfl := Option.some.inj hrole
        exact .inl ⟨hscenario, hword⟩
      case outline =>
        obtain rfl := Option.some.inj hrole
        exact .inr ⟨hscenario, hword⟩
      all_goals cases hrole
  | examples hdoc hcontainer houtline hrole =>
      refine mem_rest_of_mem_containerRest hdoc hcontainer
        (Container.cons_mem_rest.mpr ?_)
      exact .inl ⟨houtline, hrole, hword⟩
  | step hdoc hrole =>
      refine mem_rest_of_mem_steps hdoc (cons_mem_steps_mul.mpr (.inl ⟨⟨_, hrole⟩, ?_⟩))
      rwa [rest, Container.rest_addStep] at hword
  | @stepRow _ _ _ slot _ _ hslot hcells hwidth =>
      cases slot with
      | idle =>
          apply mem_mul_of_nil_mem nil_mem_gap
          exact cons_mem_stepBody_mul.mpr (.inl ⟨_, isRow_of_decode hcells, hword⟩)
      | table first =>
          apply mem_mul_of_nil_mem nil_mem_gap
          have hrow := hwidth first rfl ▸ isRow_of_decode hcells
          exact cons_mem_tableOf_mul.mpr (.inl ⟨hrow, hword⟩)
      | doc => exact hslot.elim
  | @groupRow _ _ group _ _ hcells hwidth =>
      rcases hrows : group.rows with _ | ⟨first, rows⟩ <;>
        rw [rest, hrows] at hword ⊢ <;>
        apply mem_mul_of_nil_mem nil_mem_gap
      · apply mem_mul_of_nil_mem nil_mem_texts
        exact cons_mem_table_mul.mpr (.inl ⟨_, isRow_of_decode hcells, hword⟩)
      · have hrow :=
          hwidth first (by simp [Examples.header?, hrows]) ▸ isRow_of_decode hcells
        exact cons_mem_tableOf_mul.mpr (.inl ⟨hrow, hword⟩)

theorem cons_mem_rest_of_extends {next : Phase}
    (hextends : phase.Extends node.line kind next)
    (hword : word ∈ next.rest) : kind :: word ∈ phase.rest := by
  cases hextends with
  | pass hkind =>
      apply mem_mul_of_nil_mem nil_mem_gap
      exact cons_mem_spaced_kstar_mul.mpr (.inl ⟨hkind, hword⟩)
  | featureText =>
      exact mem_mul_of_nil_mem nil_mem_gap
        (cons_mem_texts_mul.mpr (.inl ⟨trivial, hword⟩))
  | containerText hsteps =>
      rw [rest, if_pos hsteps] at hword ⊢
      exact mem_mul_of_nil_mem nil_mem_gap
        (cons_mem_texts_mul.mpr (.inl ⟨trivial, hword⟩))
  | groupText hrows =>
      rw [rest, hrows] at hword ⊢
      exact mem_mul_of_nil_mem nil_mem_gap
        (cons_mem_texts_mul.mpr (.inl ⟨trivial, hword⟩))
  | @opening _ _ _ slot _ hslot =>
      have hdocs := cons_mem_docTables_mul.mpr (.inl ⟨_, isFence_self, hword⟩)
      cases slot with
      | idle =>
          exact mem_mul_of_nil_mem nil_mem_gap (cons_mem_stepBody_mul.mpr (.inr hdocs))
      | table first =>
          exact mem_mul_of_nil_mem nil_mem_gap (cons_mem_tableOf_mul.mpr (.inr hdocs))
      | doc => exact hslot.elim
  | content =>
      exact cons_mem_kstar_mul.mpr (.inl (cons_mem_line_mul.mpr ⟨trivial, hword⟩))
  | closing hfence =>
      apply mem_mul_of_nil_mem (Language.nil_mem_kstar _)
      exact cons_mem_spaced_mul.mpr ⟨hfence, hword⟩

/-- Taking a line off the rest of a phase is moving to another phase. -/
theorem cons_mem_rest_iff (node : Node) : kind :: word ∈ phase.rest ↔
    phase.Leads node kind word := by
  constructor
  · exact leads_of_mem_rest
  · rintro (⟨hdoc, hkind, hword⟩ | ⟨next, hopens, hword⟩ | ⟨next, hextends, hword⟩)
    · exact cons_mem_rest_of_isAnnotation hdoc hkind hword
    · exact cons_mem_rest_of_opens hopens hword
    · exact cons_mem_rest_of_extends hextends hword

/-- A document may end wherever the feature is open and no doc string is. -/
theorem nil_mem_rest_iff :
    [] ∈ phase.rest ↔ phase.doc? = none ∧ ∃ feature, phase.feature? = some feature := by
  constructor
  · intro hword
    match phase with
    | awaiting =>
        exact absurd (nil_mem_mul.mp (nil_mem_mul.mp hword).2).2 nil_notMem_spaced_mul
    | header _ => exact ⟨rfl, _, rfl⟩
    | body _ _ none => exact ⟨rfl, _, rfl⟩
    | body _ _ (some ⟨_, .idle⟩) => exact ⟨rfl, _, rfl⟩
    | body _ _ (some ⟨_, .table _⟩) => exact ⟨rfl, _, rfl⟩
    | body _ _ (some ⟨_, .doc _⟩) =>
        exact absurd (nil_mem_mul.mp hword).2 nil_notMem_spaced_mul
    | examples _ _ _ => exact ⟨rfl, _, rfl⟩
  · rintro ⟨hdoc, feature, hclosed⟩
    exact mem_rest_of_mem_containers hdoc hclosed nil_mem_containers

end Phase

namespace Assembly

variable {assembly : Assembly}

theorem exists_finish_eq_ok :
    (∃ feature, assembly.finish = .ok feature) ↔ [] ∈ assembly.phase.rest := by
  rw [Phase.nil_mem_rest_iff, finish]
  rcases hdoc : assembly.phase.doc? with _ | doc
  · rcases hclosed : assembly.phase.feature? with _ | feature
    · simp
    · cases assembly.policy <;> simp
  · simp

theorem leads_iff_exists_feed {token : Token} {word : List LineKind} :
    assembly.phase.Leads (assembly.node token.line) token.kind word ↔
      ∃ next, assembly.feed token = .accepted next ∧ word ∈ next.phase.rest := by
  simp only [feed_eq_accepted_iff]
  constructor
  · rintro (⟨hdoc, hkind, hword⟩ | ⟨phase, hopens, hword⟩ | ⟨phase, hextends, hword⟩)
    · exact ⟨_, .annotate hdoc hkind, hword⟩
    · exact ⟨_, .opens hopens, hword⟩
    · exact ⟨_, .extend hextends, hword⟩
  · rintro ⟨_, hdoc | hopens | hextends, hword⟩
    · exact .inl ⟨hdoc, ‹_›, hword⟩
    · exact .inr (.inl ⟨_, hopens, hword⟩)
    · exact .inr (.inr ⟨_, hextends, hword⟩)

/-- Tokens are accepted to the end exactly if their kinds are a word of the rest
they start from. -/
theorem exists_feedAll_finish_eq_ok (tokens : List Token) :
    (∃ feature, (assembly.feedAll tokens).bind finish = .ok feature) ↔
      tokens.map Token.kind ∈ assembly.phase.rest := by
  induction tokens generalizing assembly with
  | nil => exact exists_finish_eq_ok
  | cons token tokens ih =>
      rw [List.map_cons, Phase.cons_mem_rest_iff (assembly.node token.line),
        leads_iff_exists_feed, feedAll_cons]
      rcases assembly.feed token with next | ⟨left, diagnostic⟩
      · simpa using ih
      · simp [Except.bind]

/-- A fresh assembly accepts exactly the documents of the grammar. -/
theorem start_accepts_iff_mem_document (uri : Text) (policy : TrailingComments)
    (tokens : List Token) :
    (∃ feature, ((start uri policy).feedAll tokens).bind finish = .ok feature) ↔
      tokens.map Token.kind ∈ document :=
  exists_feedAll_finish_eq_ok tokens

end Assembly

end Gherkin
