import Gherkin.Assembly.Feed
import Gherkin.Proofs.Token.Shape

/-!
# How one token moves an assembly

A token that is accepted does one of three things.  It annotates what follows, it
opens a construct whose node takes what is pending, or it extends what is open.
The relations below list these moves by the phase they start from.  They say all
that one token can do, so that what holds of every move holds of every run.
-/

namespace Gherkin

/-! ## Constructs as they are opened -/

namespace KeywordLine

def feature (opening : KeywordLine) (node : Node) : Feature :=
  { node with
    keyword := opening.keyword, name := opening.text, description := [],
    backgrounds := [], scenarios := [], trailingComments := [] }

def container (opening : KeywordLine) (node : Node) (kind : ContainerKind) :
    Container :=
  { node with
    kind := kind, keyword := opening.keyword, name := opening.text,
    description := [], steps := [] }

def step (opening : KeywordLine) (node : Node) (kind : StepKeyword) : Step :=
  { node with
    keyword := opening.keyword, kind := kind, name := opening.text,
    docs := [], rows := [] }

def examples (opening : KeywordLine) (node : Node) : Examples :=
  { node with
    keyword := opening.keyword, name := opening.text, description := [], rows := [] }

end KeywordLine

/-- The kind of container that a role opens behind other containers. -/
def Role.containerKind? : Role → Option ContainerKind
  | scenario => some .scenario
  | outline => some (.outline [])
  | _ => none

namespace Pending

/-- What is pending behind an annotation. -/
def add (pending : Pending) (kind : LineKind) : Pending :=
  ⟨pending.comments ++ kind.comments, pending.tags ++ kind.tagsOf⟩

theorem add_blank (pending : Pending) : pending.add .blank = pending := by
  simp [add, LineKind.comments, LineKind.tagsOf]

theorem add_comment (pending : Pending) (text : Text) :
    pending.add (.comment text) =
      { pending with comments := pending.comments ++ [text] } := by
  simp [add, LineKind.comments, LineKind.tagsOf]

theorem add_tags (pending : Pending) (names : List Text) :
    pending.add (.tags names) = { pending with tags := pending.tags ++ names } := by
  simp [add, LineKind.comments, LineKind.tagsOf]

end Pending

/-- The slot of a step whose doc strings are all closed. -/
def Slot.IsClosed : Slot → Prop
  | .doc _ => False
  | _ => True

namespace Phase

/-- The feature up to the open container, and the container with everything that
is open in it put into place. -/
def container? : Phase → Option (Feature × Container)
  | body feature container open? => some (feature, container.addStep open?)
  | examples feature container group => some (feature, container.addGroup group)
  | _ => none

/-- A line of the given kind opens a construct with the given node. -/
inductive Opens (node : Node) : Phase → LineKind → Phase → Prop
  | feature {opening : KeywordLine} (hrole : opening.role = .feature) :
      Opens node .awaiting (.keyword opening) (.header (opening.feature node))
  | background {feature : Feature} {opening : KeywordLine}
      (hrole : opening.role = .background) :
      Opens node (.header feature) (.keyword opening)
        (.body feature (opening.container node .background) none)
  | container {phase : Phase} {closed : Feature} {opening : KeywordLine}
      {kind : ContainerKind} (hdoc : phase.doc? = none)
      (hclosed : phase.feature? = some closed)
      (hrole : opening.role.containerKind? = some kind) :
      Opens node phase (.keyword opening)
        (.body closed (opening.container node kind) none)
  | examples {phase : Phase} {feature : Feature} {container : Container}
      {opening : KeywordLine} (hdoc : phase.doc? = none)
      (hcontainer : phase.container? = some (feature, container))
      (houtline : container.isOutline = true) (hrole : opening.role = .examples) :
      Opens node phase (.keyword opening)
        (.examples feature container (opening.examples node))
  | step {feature : Feature} {container : Container} {open? : Option OpenStep}
      {opening : KeywordLine} {kind : StepKeyword}
      (hdoc : (Phase.body feature container open?).doc? = none)
      (hrole : opening.role = .step kind) :
      Opens node (.body feature container open?) (.keyword opening)
        (.body feature (container.addStep open?)
          (some { step := opening.step node kind }))
  | stepRow {feature : Feature} {container : Container} {step : Step} {slot : Slot}
      {raw : Text} {cells : List Text} (hslot : slot.IsClosed)
      (hcells : Cells.decode raw = .ok cells)
      (hwidth : ∀ first ∈ slot.first?, first.cells.length = cells.length) :
      Opens node (.body feature container (some ⟨step, slot⟩)) (.tableRow raw)
        (.body feature container (some
          { step := { step with rows := step.rows ++ [⟨node, cells⟩] },
            slot := .table (slot.first?.getD ⟨node, cells⟩) }))
  | groupRow {feature : Feature} {container : Container} {group : Examples}
      {raw : Text} {cells : List Text} (hcells : Cells.decode raw = .ok cells)
      (hwidth : ∀ first ∈ group.header?, first.cells.length = cells.length) :
      Opens node (.examples feature container group) (.tableRow raw)
        (.examples feature container
          { group with rows := group.rows ++ [⟨node, cells⟩] })

/-- A line of the given kind extends what is open, or is passed over in front of
the feature. -/
inductive Extends (line : Nat) : Phase → LineKind → Phase → Prop
  | pass {kind : LineKind} (hkind : kind.IsPreamble) :
      Extends line .awaiting kind .awaiting
  | featureText {feature : Feature} {text : Text} :
      Extends line (.header feature) (.text text)
        (.header { feature with description := feature.description.addLine text })
  | containerText {feature : Feature} {container : Container} {text : Text}
      (hsteps : container.steps = []) :
      Extends line (.body feature container none) (.text text)
        (.body feature
          { container with description := container.description.addLine text } none)
  | groupText {feature : Feature} {container : Container} {group : Examples}
      {text : Text} (hrows : group.rows = []) :
      Extends line (.examples feature container group) (.text text)
        (.examples feature container
          { group with description := group.description.addLine text })
  | opening {feature : Feature} {container : Container} {step : Step} {slot : Slot}
      {opening : FenceLine} (hslot : slot.IsClosed) :
      Extends line (.body feature container (some ⟨step, slot⟩)) (.fence opening)
        (.body feature container
          (some ⟨step, .doc { line := line, opening := opening }⟩))
  | content {feature : Feature} {container : Container} {step : Step} {doc : OpenDoc}
      {text : Text} :
      Extends line (.body feature container (some ⟨step, .doc doc⟩)) (.content text)
        (.body feature container (some ⟨step, .doc (doc.push text)⟩))
  | closing {feature : Feature} {container : Container} {step : Step} {doc : OpenDoc}
      {closing : FenceLine} (hfence : closing.fence = doc.opening.fence) :
      Extends line (.body feature container (some ⟨step, .doc doc⟩)) (.fence closing)
        (.body feature container
          (some ⟨{ step with docs := step.docs ++ [doc.close] }, .idle⟩))

end Phase

namespace Assembly

/-- What an accepted token does to an assembly. -/
inductive Move (assembly : Assembly) (token : Token) : Assembly → Prop
  | annotate (hdoc : assembly.phase.doc? = none) (hkind : token.kind.IsAnnotation) :
      Move assembly token
        { assembly with
          pending := assembly.pending.add token.kind, lastLine := token.line }
  | opens {phase : Phase}
      (hopens : assembly.phase.Opens (assembly.node token.line) token.kind phase) :
      Move assembly token
        { assembly with pending := {}, lastLine := token.line, phase := phase }
  | extend {phase : Phase}
      (hextends : assembly.phase.Extends token.line token.kind phase) :
      Move assembly token { assembly with lastLine := token.line, phase := phase }

end Assembly

/-! ## Moves are what is accepted -/

theorem Phase.feature?_eq_none {phase : Phase} : phase.feature? = none ↔
    phase = .awaiting := by
  cases phase <;> simp [feature?]

/-- Closing the feature puts the open container into place. -/
theorem Phase.feature?_of_container? {phase : Phase} {feature : Feature}
    {container : Container}
    (hcontainer : phase.container? = some (feature, container)) :
    phase.feature? = some (feature.addContainer container) := by
  cases phase with
  | awaiting | header => cases hcontainer
  | body | examples =>
      obtain ⟨rfl, rfl⟩ := Prod.mk.inj (Option.some.inj hcontainer)
      rfl

theorem Phase.doc?_eq_some {phase : Phase} {doc : OpenDoc} :
    phase.doc? = some doc ↔
      ∃ feature container step,
      phase = .body feature container (some ⟨step, .doc doc⟩) := by
  unfold doc?
  split <;> simp_all

/-- Only the slot of the open step can hold an open doc string. -/
theorem Phase.doc?_body_eq_none_iff {feature : Feature} {container : Container}
    {step : Step}
    {slot : Slot} :
    (Phase.body feature container (some ⟨step, slot⟩)).doc? = none ↔ slot.IsClosed := by
  cases slot <;> simp [doc?, Slot.IsClosed]

/-- No construct is opened while a doc string is open. -/
theorem Phase.Opens.doc?_eq_none {node : Node} {phase next : Phase} {kind : LineKind}
    (hopens : phase.Opens node kind next) : phase.doc? = none := by
  cases hopens with
  | feature | background | groupRow => rfl
  | container hdoc | examples hdoc | step hdoc => exact hdoc
  | stepRow hslot => exact doc?_body_eq_none_iff.mpr hslot

/-- A construct as it is opened holds no open doc string. -/
theorem Phase.Opens.doc?_next_eq_none {node : Node} {phase next : Phase}
    {kind : LineKind}
    (hopens : phase.Opens node kind next) : next.doc? = none := by
  cases hopens <;> rfl

/-- Only a fence opens a doc string. -/
theorem Phase.Extends.doc?_next_eq_none {line : Nat} {kind : LineKind}
    {phase next : Phase}
    (hextends : phase.Extends line kind next) (hdoc : phase.doc? = none)
    (hfence : ∀ opening, kind ≠ .fence opening) : next.doc? = none := by
  cases hextends with
  | pass | featureText | containerText | groupText => rfl
  | opening => exact absurd rfl (hfence _)
  | content => cases hdoc
  | closing => cases hdoc

/-- There is no text in a doc string. -/
theorem Phase.Extends.doc?_of_text {line : Nat} {phase next : Phase} {text : Text}
    (hextends : phase.Extends line (.text text) next) :
    phase.doc? = none ∧ next.doc? = none := by
  cases hextends with
  | pass hkind => exact hkind.elim
  | featureText | containerText | groupText => exact ⟨rfl, rfl⟩

namespace Assembly

variable {assembly next : Assembly} {line : Nat}

theorem openExamples_eq_accepted_iff {opening : KeywordLine} {feature : Feature}
    {container : Container} :
    assembly.openExamples line opening feature container = .accepted next ↔
      container.isOutline = true ∧ next =
        assembly.enter
        (.examples feature container (opening.examples (assembly.node line))) := by
  unfold openExamples
  by_cases houtline : container.isOutline = true
  · simp [houtline, KeywordLine.examples, eq_comm]
  · simp [houtline, reject]

/-- Where a keyword is accepted there is a place for it. -/
theorem exists_opens_of_feedKeyword {opening : KeywordLine}
    (hdoc : assembly.phase.doc? = none)
    (hfed : assembly.feedKeyword line opening = .accepted next) :
    ∃ phase, assembly.phase.Opens (assembly.node line) (.keyword opening) phase ∧
      next = assembly.enter phase := by
  unfold feedKeyword at hfed
  rcases hclosed : assembly.phase.feature? with _ | closed
  · rw [hclosed] at hfed
    rw [Phase.feature?_eq_none.mp hclosed]
    rcases hrole : opening.role with _ | _ | _ | _ | _ | _ <;> rw [hrole] at hfed
    case feature => exact ⟨_, .feature hrole, (Outcome.accepted.inj hfed).symm⟩
    all_goals cases hfed
  · rw [hclosed] at hfed
    rcases hrole : opening.role with _ | _ | _ | _ | _ | kind <;> rw [hrole] at hfed
    case feature => cases hfed
    case background =>
      rcases hphase : assembly.phase with _ | feature | _ | _ <;> rw [hphase] at hfed
      case header => exact ⟨_, .background hrole, (Outcome.accepted.inj hfed).symm⟩
      all_goals cases hfed
    case scenario =>
      have hkind : opening.role.containerKind? = some .scenario := by
        rw [hrole]
        rfl
      exact ⟨_, .container hdoc hclosed hkind, (Outcome.accepted.inj hfed).symm⟩
    case outline =>
      have hkind : opening.role.containerKind? = some (.outline []) := by
        rw [hrole]
        rfl
      exact ⟨_, .container hdoc hclosed hkind, (Outcome.accepted.inj hfed).symm⟩
    case examples =>
      rcases hphase : assembly.phase with _ | _ | ⟨feature, container, open?⟩ |
        ⟨feature, container, group⟩ <;> rw [hphase] at hfed hdoc
      case body | examples =>
        obtain ⟨houtline, rfl⟩ := openExamples_eq_accepted_iff.mp hfed
        exact ⟨_, .examples hdoc rfl houtline hrole, rfl⟩
      all_goals cases hfed
    case step =>
      rcases hphase : assembly.phase with _ | _ | ⟨feature, container, open?⟩ | _ <;>
        rw [hphase] at hfed hdoc
      case body => exact ⟨_, .step hdoc hrole, (Outcome.accepted.inj hfed).symm⟩
      all_goals cases hfed

/-- Where there is a place for a keyword it is accepted. -/
theorem feedKeyword_of_opens {opening : KeywordLine} {phase : Phase}
    (hopens : assembly.phase.Opens (assembly.node line) (.keyword opening) phase) :
    assembly.feedKeyword line opening = .accepted (assembly.enter phase) := by
  unfold feedKeyword
  generalize assembly.phase = start at hopens
  cases hopens with
  | feature hrole => simp [Phase.feature?, hrole, openFeature, KeywordLine.feature]
  | background hrole =>
      simp [Phase.feature?, hrole, openContainer, KeywordLine.container]
  | container _ hclosed hrole =>
      rcases hopened : opening.role with _ | _ | _ | _ | _ | _ <;> rw [hopened] at hrole
      case scenario | outline =>
        obtain rfl := Option.some.inj hrole
        simp [hclosed, openContainer, KeywordLine.container]
      all_goals cases hrole
  | examples _ hcontainer houtline hrole =>
      cases start with
      | awaiting | header => cases hcontainer
      | body | examples =>
          obtain ⟨rfl, rfl⟩ := Prod.mk.inj (Option.some.inj hcontainer)
          simp [Phase.feature?, hrole, openExamples_eq_accepted_iff, houtline]
  | step _ hrole => simp [Phase.feature?, hrole, openStep, KeywordLine.step]

theorem feedText_eq_accepted_iff {text : Text} :
    assembly.feedText line text = .accepted next ↔
      ∃ phase, assembly.phase.Extends line (.text text) phase ∧
        next = assembly.stay phase := by
  constructor
  · intro h
    unfold feedText at h
    rcases hphase : assembly.phase with _ | feature | ⟨feature, container, open?⟩ |
      ⟨feature, container, group⟩ <;> rw [hphase] at h
    case awaiting => cases h
    case header => exact ⟨_, .featureText, (Outcome.accepted.inj h).symm⟩
    case body =>
      simp only [] at h
      split at h
      · next hempty =>
          simp only [Bool.and_eq_true, List.isEmpty_iff, Option.isNone_iff_eq_none]
            at hempty
          obtain ⟨hsteps, rfl⟩ := hempty
          exact ⟨_, .containerText hsteps, (Outcome.accepted.inj h).symm⟩
      · cases h
    case examples =>
      simp only [] at h
      split at h
      · next hempty =>
          exact ⟨_, .groupText (List.isEmpty_iff.mp hempty),
            (Outcome.accepted.inj h).symm⟩
      · cases h
  · rintro ⟨phase, hextends, rfl⟩
    unfold feedText
    generalize assembly.phase = start at hextends
    cases hextends with
    | pass hkind => exact hkind.elim
    | featureText => rfl
    | containerText hsteps => simp [hsteps]
    | groupText hrows => simp [hrows]

theorem feedOpening_eq_accepted_iff {opening : FenceLine}
    (hdoc : assembly.phase.doc? = none) :
    assembly.feedOpening line opening = .accepted next ↔
      ∃ phase, assembly.phase.Extends line (.fence opening) phase ∧
        next = assembly.stay phase := by
  constructor
  · intro h
    unfold feedOpening at h
    rcases hphase : assembly.phase with _ | feature |
      ⟨feature, container, _ | ⟨step, slot⟩⟩ |
      ⟨feature, container, group⟩ <;> rw [hphase] at h hdoc
    case awaiting =>
      exact ⟨_, .pass trivial, by rw [← Outcome.accepted.inj h, ← hphase]; rfl⟩
    case body.some =>
      have hslot := Phase.doc?_body_eq_none_iff.mp hdoc
      exact ⟨_, .opening hslot, (Outcome.accepted.inj h).symm⟩
    all_goals cases h
  · rintro ⟨phase, hextends, rfl⟩
    unfold feedOpening
    generalize hphase : assembly.phase = start at hextends
    cases hextends with
    | pass hkind => simp [stay, ← hphase]
    | opening hslot => rfl
    | closing => simp [hphase, Phase.doc?] at hdoc

theorem widthFault?_eq_none {row : Row} {first? : Option Row} :
    row.widthFault? first? = none ↔
      ∀ first ∈ first?, first.cells.length = row.cells.length := by
  cases first? <;> simp [Row.widthFault?]

theorem addRow_eq_accepted_iff {raw : Text} {first? : Option Row}
    {place : Row → Phase} :
    assembly.addRow line raw first? place = .accepted next ↔
      ∃ cells, Cells.decode raw = .ok cells ∧
        (∀ first ∈ first?, first.cells.length = cells.length) ∧
        next = assembly.enter (place ⟨assembly.node line, cells⟩) := by
  unfold addRow
  rcases hcells : Cells.decode raw with fault | cells
  · simp [reject]
  · simp only [Except.ok.injEq, exists_eq_left']
    rcases hfault : Row.widthFault? ⟨assembly.node line, cells⟩ first? with _ | cause
    · have hwidth := widthFault?_eq_none.mp hfault
      simp only [Outcome.accepted.injEq]
      exact ⟨fun h => ⟨hwidth, h.symm⟩, fun h => h.2.symm⟩
    · have hwidth := mt widthFault?_eq_none.mpr (hfault ▸ Option.some_ne_none cause)
      simp only [reduceCtorEq, false_iff]
      exact fun h => hwidth h.1

theorem feedRow_eq_accepted_iff {raw : Text} (hdoc : assembly.phase.doc? = none) :
    assembly.feedRow line raw = .accepted next ↔
      (∃ phase, assembly.phase.Opens (assembly.node line) (.tableRow raw) phase ∧
        next = assembly.enter phase) ∨
      ∃ phase, assembly.phase.Extends line (.tableRow raw) phase ∧
        next = assembly.stay phase := by
  constructor
  · intro h
    unfold feedRow at h
    rcases hphase : assembly.phase with _ | feature |
      ⟨feature, container, _ | ⟨step, slot⟩⟩ |
      ⟨feature, container, group⟩ <;> rw [hphase] at h hdoc
    case awaiting =>
      exact .inr ⟨_, .pass trivial, by rw [← Outcome.accepted.inj h, ← hphase]; rfl⟩
    case body.some =>
      have hslot := Phase.doc?_body_eq_none_iff.mp hdoc
      obtain ⟨cells, hcells, hwidth, rfl⟩ := addRow_eq_accepted_iff.mp h
      exact .inl ⟨_, .stepRow hslot hcells hwidth, rfl⟩
    case examples =>
      obtain ⟨cells, hcells, hwidth, rfl⟩ := addRow_eq_accepted_iff.mp h
      exact .inl ⟨_, .groupRow hcells hwidth, rfl⟩
    all_goals cases h
  · unfold feedRow
    generalize hphase : assembly.phase = start
    rintro (⟨phase, hopens, rfl⟩ | ⟨phase, hextends, rfl⟩)
    · cases hopens with
      | stepRow _ hcells hwidth =>
          exact addRow_eq_accepted_iff.mpr ⟨_, hcells, hwidth, rfl⟩
      | groupRow hcells hwidth =>
          exact addRow_eq_accepted_iff.mpr ⟨_, hcells, hwidth, rfl⟩
    · cases hextends with
      | pass _ => simp [stay, ← hphase]

theorem feedInDoc_eq_accepted_iff {feature : Feature} {container : Container}
    {step : Step}
    {doc : OpenDoc} {token : Token} :
    assembly.feedInDoc feature container step doc token = .accepted next ↔
      ∃ phase, Phase.Extends token.line
      (.body feature container (some ⟨step, .doc doc⟩))
          token.kind phase ∧
        next = assembly.stay phase := by
  unfold feedInDoc
  constructor
  · intro h
    rcases hkind : token.kind with _ | _ | _ | _ | closing | text | _ | _ <;>
      rw [hkind] at h
    case content => exact ⟨_, .content, (Outcome.accepted.inj h).symm⟩
    case fence =>
      simp only [] at h
      split at h
      · next hfence => exact ⟨_, .closing hfence, (Outcome.accepted.inj h).symm⟩
      · cases h
    all_goals cases h
  · rintro ⟨phase, hextends, rfl⟩
    generalize token.kind = kind at hextends
    cases hextends with
    | opening hslot => exact hslot.elim
    | content => rfl
    | closing hfence => simp [hfence]

/-- Content has no place outside doc strings, except in front of the feature. -/
theorem feedOutside_content_eq_accepted_iff {text : Text} :
    assembly.feedOutside ⟨line, .content text⟩ = .accepted next ↔
      assembly.phase = .awaiting ∧ next = assembly := by
  unfold feedOutside
  rcases hphase : assembly.phase with _ | _ | _ | _ <;> simp [reject, eq_comm]

/-- A token that is accepted outside doc strings makes a move. -/
theorem move_of_feedOutside {kind : LineKind} (hdoc : assembly.phase.doc? = none)
    (hfed : assembly.feedOutside ⟨assembly.lastLine, kind⟩ = .accepted next) :
    assembly.Move ⟨assembly.lastLine, kind⟩ next := by
  cases kind with
  | keyword opening =>
      obtain ⟨phase, hopens, rfl⟩ := exists_opens_of_feedKeyword hdoc hfed
      exact .opens hopens
  | tags names =>
      rw [← Outcome.accepted.inj hfed, ← assembly.pending.add_tags]
      exact .annotate hdoc trivial
  | comment text =>
      rw [← Outcome.accepted.inj hfed, ← assembly.pending.add_comment]
      exact .annotate hdoc trivial
  | tableRow raw =>
      obtain ⟨phase, hopens, rfl⟩ | ⟨phase, hextends, rfl⟩ :=
        (feedRow_eq_accepted_iff hdoc).mp hfed
      · exact .opens hopens
      · exact .extend hextends
  | fence opening =>
      obtain ⟨phase, hextends, rfl⟩ := (feedOpening_eq_accepted_iff hdoc).mp hfed
      exact .extend hextends
  | content text =>
      obtain ⟨hphase, rfl⟩ := feedOutside_content_eq_accepted_iff.mp hfed
      have hpass :
          Phase.Extends next.lastLine next.phase (.content text) next.phase := by
        rw [hphase]
        exact .pass trivial
      exact .extend hpass
  | text text =>
      obtain ⟨phase, hextends, rfl⟩ := feedText_eq_accepted_iff.mp hfed
      exact .extend hextends
  | blank =>
      have hmove : assembly.Move ⟨assembly.lastLine, .blank⟩
          { assembly with pending := assembly.pending.add .blank } :=
        .annotate hdoc trivial
      rw [Pending.add_blank] at hmove
      exact Outcome.accepted.inj hfed ▸ hmove

/-- Outside doc strings every move is accepted. -/
theorem feedOutside_of_move {kind : LineKind} (hdoc : assembly.phase.doc? = none)
    (hmove : assembly.Move ⟨assembly.lastLine, kind⟩ next) :
    assembly.feedOutside ⟨assembly.lastLine, kind⟩ = .accepted next := by
  generalize hstart : assembly.phase = start
  cases hmove with
  | annotate _ hkind =>
      cases kind with
      | blank => rw [Pending.add_blank]; rfl
      | comment text => rw [Pending.add_comment]; rfl
      | tags names => rw [Pending.add_tags]; rfl
      | _ => exact hkind.elim
  | opens hopens =>
      cases kind with
      | keyword opening => exact feedKeyword_of_opens hopens
      | tableRow raw =>
          exact (feedRow_eq_accepted_iff hdoc).mpr (.inl ⟨_, hopens, rfl⟩)
      | _ =>
          rw [hstart] at hopens
          cases hopens
  | extend hextends =>
      cases kind with
      | text text => exact feedText_eq_accepted_iff.mpr ⟨_, hextends, rfl⟩
      | tableRow raw =>
          exact (feedRow_eq_accepted_iff hdoc).mpr (.inr ⟨_, hextends, rfl⟩)
      | fence opening =>
          exact (feedOpening_eq_accepted_iff hdoc).mpr ⟨_, hextends, rfl⟩
      | content text =>
          rw [hstart] at hextends hdoc
          cases hextends with
          | pass _ =>
              exact feedOutside_content_eq_accepted_iff.mpr ⟨hstart, by rw [← hstart]⟩
          | content => cases hdoc
      | _ =>
          rw [hstart] at hextends
          cases hextends
          all_goals trivial

/-- A move does not look at the line of the token before. -/
theorem withLastLine_move_iff {token : Token} (last : Nat) :
    { assembly with lastLine := last }.Move token next ↔ assembly.Move token next := by
  constructor
  all_goals
    intro hmove
    cases hmove with
    | annotate hdoc hkind => exact .annotate hdoc hkind
    | opens hopens => exact .opens hopens
    | extend hextends => exact .extend hextends

/-- The moves are all that an accepted token can do, and each of them is accepted. -/
theorem feed_eq_accepted_iff {token : Token} :
    assembly.feed token = .accepted next ↔ assembly.Move token next := by
  let reached : Assembly := { assembly with lastLine := token.line }
  rw [← withLastLine_move_iff token.line]
  rcases hdoc : assembly.phase.doc? with _ | doc
  · rw [feed_of_doc?_eq_none token hdoc]
    constructor
    · intro hfed
      have hmove : reached.Move ⟨reached.lastLine, token.kind⟩ next :=
        move_of_feedOutside hdoc hfed
      exact hmove
    · intro hmove
      have hfed : reached.feedOutside ⟨reached.lastLine, token.kind⟩ = .accepted next :=
        feedOutside_of_move hdoc hmove
      exact hfed
  · obtain ⟨feature, container, step, hphase⟩ := Phase.doc?_eq_some.mp hdoc
    rw [feed_of_doc token hphase, feedInDoc_eq_accepted_iff]
    constructor
    · rintro ⟨phase, hextends, rfl⟩
      rw [← hphase] at hextends
      exact .extend hextends
    · intro hmove
      generalize hstart : reached.phase = start
      cases hmove with
      | annotate hnone _ =>
          rw [show reached.phase = assembly.phase from rfl, hdoc] at hnone
          cases hnone
      | opens hopens =>
          rw [show reached.phase = assembly.phase from rfl] at hopens
          rw [hopens.doc?_eq_none] at hdoc
          cases hdoc
      | extend hextends => exact ⟨_, hphase ▸ hextends, rfl⟩

theorem Move.uri_eq {token : Token} (hmove : assembly.Move token next) :
    next.uri = assembly.uri := by
  cases hmove <;> rfl

theorem Move.lastLine_eq {token : Token} (hmove : assembly.Move token next) :
    next.lastLine = token.line := by
  cases hmove <;> rfl

/-- What becomes of the comments at the end changes nothing before the end. -/
theorem Move.withPolicy {token : Token} (hmove : assembly.Move token next)
    (policy : TrailingComments) :
    { assembly with policy := policy }.Move token { next with policy := policy } := by
  cases hmove with
  | annotate hdoc hkind => exact .annotate hdoc hkind
  | opens hopens => exact .opens hopens
  | extend hextends => exact .extend hextends

/-! ## Runs -/

theorem feedAll_cons_eq_ok_iff {token : Token} {tokens : List Token}
    {final : Assembly} :
    assembly.feedAll (token :: tokens) = .ok final ↔
      ∃ next, assembly.Move token next ∧ next.feedAll tokens = .ok final := by
  simp only [← feed_eq_accepted_iff]
  rw [feedAll_cons]
  rcases assembly.feed token with next | ⟨left, diagnostic⟩ <;> simp

theorem feedAll_withPolicy {tokens : List Token} {final : Assembly}
    (hrun : assembly.feedAll tokens = .ok final) (policy : TrailingComments) :
    { assembly with policy := policy }.feedAll tokens =
      .ok { final with policy := policy } := by
  induction tokens generalizing assembly with
  | nil => rw [feedAll_nil, Except.ok.inj hrun]
  | cons token tokens ih =>
      obtain ⟨next, hmove, hrun⟩ := feedAll_cons_eq_ok_iff.mp hrun
      exact feedAll_cons_eq_ok_iff.mpr ⟨_, hmove.withPolicy policy, ih hrun⟩

/-- What holds at the start of a run and is kept by every move on the token that comes
next holds at its end, of all the tokens read. -/
theorem feedAll_induction_split {invariant : List Token → Assembly → Prop}
    {start final : Assembly}
    {tokens : List Token} (hrun : start.feedAll tokens = .ok final)
    (hstart : invariant [] start)
    (hmove : ∀ front token back assembly next, tokens = front ++ token :: back →
      invariant front assembly → assembly.Move token next →
        invariant (front ++ [token]) next) :
    invariant tokens final := by
  suffices hsplit : ∀ back front assembly, tokens = front ++ back →
    invariant front assembly →
      assembly.feedAll back = .ok final → invariant tokens final from
    hsplit tokens [] start rfl hstart hrun
  intro back
  induction back with
  | nil =>
      intro front assembly heq hfront hback
      rw [heq, List.append_nil, ← Except.ok.inj hback]
      exact hfront
  | cons token back ih =>
      intro front assembly heq hfront hback
      obtain ⟨next, hmoved, hback⟩ := feedAll_cons_eq_ok_iff.mp hback
      have hnext := hmove front token back assembly next heq hfront hmoved
      exact ih (front ++ [token]) next (by simp [heq]) hnext hback

/-- What holds at the start of a run and is kept by every move on one of its tokens
holds at its end, of all the tokens read. -/
theorem feedAll_induction {invariant : List Token → Assembly → Prop}
    {start final : Assembly}
    {tokens : List Token} (hrun : start.feedAll tokens = .ok final)
    (hstart : invariant [] start)
    (hmove : ∀ front token assembly next, token ∈ tokens → invariant front assembly →
      assembly.Move token next → invariant (front ++ [token]) next) :
    invariant tokens final :=
  feedAll_induction_split hrun hstart fun front token _ assembly next heq =>
    hmove front token assembly next (by simp [heq])

end Assembly

end Gherkin
