import Gherkin.Outline.Expansion
import Gherkin.Proofs.Tables

/-!
# What an outline needs

Expanding an outline asks its groups of examples for columns, and for nothing else.
Every placeholder of an outline needs a column, in the order in which a step is filled
in: its doc strings, its rows, its name, and the name of the outline behind all steps.
Expansion fails with the first need that has no column in the first group that has a
data row and lacks one.  As the rows of a group are equally wide, a column has a cell
in every data row, so it does not matter what the cells hold.
-/

namespace Gherkin

/-- The name of a column and the line of the construct that needs it. -/
structure Need where
  name : Text
  line : Nat
deriving DecidableEq, Repr

/-- The columns that the placeholders of a template at the given line need. -/
def Text.needs (template : Text) (line : Nat) : List Need :=
  template.placeholders.map fun name => ⟨name, line⟩

def DocString.needs (doc : DocString) : List Need :=
  Text.needs doc.content doc.line

def Row.needs (row : Row) : List Need :=
  row.cells.flatMap fun cell => Text.needs cell row.line

/-- What a step needs, in the order in which it is filled in. -/
def Step.needs (step : Step) : List Need :=
  step.docs.flatMap DocString.needs ++
    (step.rows.flatMap Row.needs ++ Text.needs step.name step.line)

/-- What an outline needs: what its steps need, and then what its name needs. -/
def Container.needs (container : Container) : List Need :=
  container.steps.flatMap Step.needs ++ Text.needs container.name container.line

namespace Need

/-- The first need that has no column below these headers. -/
def fault? (headers : List Text) (needs : List Need) : Option PlaceholderFault :=
  (needs.find? fun need => need.name ∉ headers).map fun need =>
    ⟨need.name, headers, need.line⟩

variable {headers : List Text}

theorem fault?_append (front back : List Need) :
    fault? headers (front ++ back) =
      (fault? headers front).or (fault? headers back) := by
  rw [fault?, List.find?_append, Option.map_or]
  rfl

/-- The first fault of many needs is that of the first construct that has one. -/
theorem fault?_flatMap {Item : Type} (items : List Item) (needs : Item → List Need) :
    fault? headers (items.flatMap needs) =
      items.findSome? fun item => fault? headers (needs item) := by
  induction items with
  | nil => rfl
  | cons item items ih =>
      rw [List.flatMap_cons, fault?_append, ih, List.findSome?_cons]
      cases fault? headers (needs item) <;> rfl

theorem fault?_eq_some_iff {needs : List Need} {fault : PlaceholderFault} :
    fault? headers needs = some fault ↔
      ∃ front need back, needs = front ++ need :: back ∧
        (∀ other ∈ front, other.name ∈ headers) ∧ need.name ∉ headers ∧
        fault = ⟨need.name, headers, need.line⟩ := by
  simp only [fault?, Option.map_eq_some_iff, List.find?_eq_some_iff_append]
  constructor
  · rintro ⟨need, ⟨hneed, front, back, rfl, hfront⟩, rfl⟩
    exact ⟨front, need, back, rfl, by simpa using hfront, by simpa using hneed, rfl⟩
  · rintro ⟨front, need, back, rfl, hfront, hneed, rfl⟩
    exact ⟨need, ⟨by simpa using hneed, front, back, rfl, by simpa using hfront⟩, rfl⟩

end Need

section FirstOf

variable {Item Result : Type}

theorem findSome?_congr {items : List Item} {first second : Item → Option Result}
    (heq : ∀ item ∈ items, first item = second item) :
    items.findSome? first = items.findSome? second := by
  induction items with
  | nil => rfl
  | cons item items ih =>
      rw [List.findSome?_cons, List.findSome?_cons, heq item List.mem_cons_self,
        ih fun other hother => heq other (List.mem_cons_of_mem item hother)]

theorem findSome?_const (items : List Item) (result? : Option Result) :
    (items.findSome? fun _ => result?) = if items = [] then none else result? := by
  induction items with
  | nil => rfl
  | cons item items ih =>
      rw [List.findSome?_cons, ih]
      cases result? <;> simp

end FirstOf

namespace PlaceholderFault

variable {Item Result : Type}

/-- The fault that an attempt ends with, if it fails. -/
def of? : Except PlaceholderFault Result → Option PlaceholderFault
  | .error fault => some fault
  | .ok _ => none

theorem of?_eq_some_iff {attempt : Except PlaceholderFault Result}
    {fault : PlaceholderFault} : of? attempt = some fault ↔ attempt = .error fault := by
  cases attempt <;> simp [of?]

/-- What comes behind an attempt is reached if that succeeds. -/
theorem of?_bind (attempt : Except PlaceholderFault Item)
    {next : Item → Except PlaceholderFault Result} {behind : Option PlaceholderFault}
    (hnext : ∀ item, of? (next item) = behind) :
    of? (attempt >>= next) = (of? attempt).or behind := by
  cases attempt with
  | error fault => rfl
  | ok item => exact hnext item

/-- What is made of a result cannot fail. -/
theorem of?_bind_pure (attempt : Except PlaceholderFault Item) (make : Item → Result) :
    of? (attempt >>= fun item => pure (make item)) = of? attempt := by
  cases attempt <;> rfl

theorem of?_mapM (attempt : Item → Except PlaceholderFault Result)
    (items : List Item) :
    of? (items.mapM attempt) = items.findSome? fun item => of? (attempt item) := by
  induction items with
  | nil => rfl
  | cons item items ih =>
      rw [List.mapM_cons, of?_bind _ fun result => of?_bind_pure _ (result :: ·), ih,
        List.findSome?_cons]
      cases of? (attempt item) <;> rfl

/-- Attempts that fail by what they need fail together by what all of them need. -/
theorem of?_mapM_eq {headers : List Text} {needs : Item → List Need}
    {attempt : Item → Except PlaceholderFault Result}
    (hattempt : ∀ item, of? (attempt item) = Need.fault? headers (needs item))
    (items : List Item) :
    of? (items.mapM attempt) = Need.fault? headers (items.flatMap needs) := by
  rw [of?_mapM, Need.fault?_flatMap]
  exact congrArg (List.findSome? · items) (funext hattempt)

end PlaceholderFault

/-! ## Filling in -/

open PlaceholderFault

namespace Columns

variable {columns : Columns}

/-- Every column has a value. -/
def AreFull (columns : Columns) : Prop :=
  columns.headers.length = columns.values.length

/-- Full columns have a value for every name among their headers. -/
theorem AreFull.value?_eq_none_iff (hfull : columns.AreFull) (name : Text) :
    columns.value? name = none ↔ name ∉ columns.headers := by
  have hnames : (columns.headers.zip columns.values).map Prod.fst = columns.headers :=
    List.map_fst_zip hfull.le
  conv_rhs => rw [← hnames]
  rw [value?, List.lookup_eq_none_iff, List.mem_map]
  constructor
  · rintro hnone ⟨pair, hpair, rfl⟩
    exact absurd (hnone pair hpair) (by simp)
  · intro hname pair hpair
    exact bne_iff_ne.mpr fun heq => hname ⟨pair, hpair, heq.symm⟩

theorem AreFull.of?_fillPiece_placeholder (hfull : columns.AreFull) (line : Nat)
    (name : Text) :
    of? (columns.fillPiece line (.placeholder name)) =
      Need.fault? columns.headers [⟨name, line⟩] := by
  have hvalue := hfull.value?_eq_none_iff name
  rw [fillPiece]
  cases hlookup : columns.value? name with
  | none => simp [of?, Need.fault?, hvalue.mp hlookup]
  | some value =>
      have hmem : name ∈ columns.headers := by
        by_contra hmem
        rw [hvalue.mpr hmem] at hlookup
        cases hlookup
      simp [of?, Need.fault?, hmem]

/-- A template is filled in unless a placeholder in it has no column. -/
theorem AreFull.of?_substitute (hfull : columns.AreFull) (line : Nat)
    (template : Text) :
    of? (columns.substitute line template) =
      Need.fault? columns.headers (template.needs line) := by
  rw [substitute, Text.needs, Text.placeholders]
  induction template.pieces with
  | nil => rfl
  | cons piece pieces ih =>
      have hrest (front : Text) :=
        of?_bind_pure (columns.fillPieces line pieces) (front ++ ·)
      rw [fillPieces, of?_bind _ hrest, ih]
      cases piece with
      | char c => rfl
      | placeholder name =>
          rw [hfull.of?_fillPiece_placeholder, ← Need.fault?_append]
          rfl

theorem AreFull.of?_fillDoc (hfull : columns.AreFull) (doc : DocString) :
    of? (columns.fillDoc doc) = Need.fault? columns.headers doc.needs :=
  (of?_bind_pure _ _).trans (hfull.of?_substitute doc.line doc.content)

theorem AreFull.of?_fillRow (hfull : columns.AreFull) (row : Row) :
    of? (columns.fillRow row) = Need.fault? columns.headers row.needs :=
  (of?_bind_pure _ _).trans (of?_mapM_eq (hfull.of?_substitute row.line) row.cells)

theorem AreFull.of?_fillStep (hfull : columns.AreFull) (step : Step) :
    of? (columns.fillStep step) = Need.fault? columns.headers step.needs := by
  have hname (docs : List DocString) (rows : List Row) :=
    of?_bind_pure (columns.substitute step.line step.name) fun name =>
      { step with docs := docs, rows := rows, name := name }
  have hrows (docs : List DocString) :=
    of?_bind (step.rows.mapM columns.fillRow) (hname docs)
  rw [fillStep, of?_bind _ hrows, of?_mapM_eq hfull.of?_fillDoc,
    of?_mapM_eq hfull.of?_fillRow, hfull.of?_substitute, Step.needs,
    Need.fault?_append, Need.fault?_append]

end Columns

/-! ## Groups of examples -/

namespace Examples

/-- The group has a data row to fill in, but no column for the need. -/
def Lacks (group : Examples) (need : Need) : Prop :=
  group.dataRows ≠ [] ∧ ∃ header ∈ group.header?, need.name ∉ header.cells

/-- The fault of the first need that the group lacks. -/
def fault? (group : Examples) (needs : List Need) : Option PlaceholderFault :=
  if group.dataRows = [] then none
  else group.header?.bind fun header => Need.fault? header.cells needs

/-- The rows of the group are equally wide. -/
def IsEven (group : Examples) : Prop :=
  ∀ left ∈ group.rows, ∀ right ∈ group.rows, left.cells.length = right.cells.length

/-- Two groups have the same header and equally wide rows below it. -/
structure SameShape (group other : Examples) : Prop where
  header_eq : group.header? = other.header?
  widths_eq :
    group.rows.map (fun row => row.cells.length) =
      other.rows.map fun row => row.cells.length

variable {group other : Examples} {needs : List Need}

/-- A group lacks the first of its needs that is not among its headers. -/
theorem fault?_eq_some_iff {fault : PlaceholderFault} :
    group.fault? needs = some fault ↔
      ∃ front need back, needs = front ++ need :: back ∧
        (∀ met ∈ front, ¬ group.Lacks met) ∧ group.Lacks need ∧
        ∃ header ∈ group.header?, fault = ⟨need.name, header.cells, need.line⟩ := by
  unfold fault? Lacks
  by_cases hdata : group.dataRows = []
  · simp [hdata]
  · rcases hheader : group.header? with _ | header
    · simp
    · simp [hdata, Need.fault?_eq_some_iff]

theorem fault?_eq_none_iff :
    group.fault? needs = none ↔ ∀ need ∈ needs, ¬ group.Lacks need := by
  unfold fault? Lacks
  by_cases hdata : group.dataRows = []
  · simp [hdata]
  · rcases hheader : group.header? with _ | header
    · simp
    · simp [hdata, Need.fault?]

theorem SameShape.dataRows_eq_nil_iff (hshape : group.SameShape other) :
    group.dataRows = [] ↔ other.dataRows = [] := by
  have hlength := congrArg List.length hshape.widths_eq
  rw [List.length_map, List.length_map] at hlength
  rw [dataRows, dataRows, ← List.length_eq_zero_iff, ← List.length_eq_zero_iff,
    List.length_tail, List.length_tail, hlength]

/-- What is wrong with a group does not depend on the cells of its data rows. -/
theorem SameShape.fault?_eq (hshape : group.SameShape other) (needs : List Need) :
    group.fault? needs = other.fault? needs := by
  unfold fault?
  rw [hshape.header_eq]
  by_cases hdata : group.dataRows = []
  · rw [if_pos hdata, if_pos (hshape.dataRows_eq_nil_iff.mp hdata)]
  · rw [if_neg hdata, if_neg (mt hshape.dataRows_eq_nil_iff.mpr hdata)]

theorem SameShape.isEven (hshape : group.SameShape other) (heven : group.IsEven) :
    other.IsEven := by
  intro left hleft right hright
  have hwidth {row : Row} (hrow : row ∈ other.rows) :
      ∃ same ∈ group.rows, same.cells.length = row.cells.length := by
    have hmem : row.cells.length ∈ other.rows.map fun row => row.cells.length :=
      List.mem_map_of_mem hrow
    rw [← hshape.widths_eq] at hmem
    exact List.mem_map.mp hmem
  obtain ⟨above, habove, hleftEq⟩ := hwidth hleft
  obtain ⟨below, hbelow, hrightEq⟩ := hwidth hright
  rw [← hleftEq, ← hrightEq]
  exact heven above habove below hbelow

end Examples

/-! ## Expansion -/

namespace Container

/-- The fault of the first group that lacks a column. -/
def fault? (container : Container) : Option PlaceholderFault :=
  container.groups.findSome? fun group => group.fault? container.needs

/-- The fault names the first need that is lacking in the first group that lacks one,
and lists the columns of that group. -/
def IsFirstFault (container : Container) (fault : PlaceholderFault) : Prop :=
  ∃ before group behind, container.groups = before ++ group :: behind ∧
    (∀ other ∈ before, ∀ need ∈ container.needs, ¬ other.Lacks need) ∧
    ∃ front need back, container.needs = front ++ need :: back ∧
      (∀ met ∈ front, ¬ group.Lacks met) ∧ group.Lacks need ∧
      ∃ header ∈ group.header?, fault = ⟨need.name, header.cells, need.line⟩

/-- Two outlines that differ in nothing but the cells of data rows, which they have as
many of. -/
structure SameTemplate (container other : Container) : Prop where
  line_eq : container.line = other.line
  name_eq : container.name = other.name
  steps_eq : container.steps = other.steps
  groups : List.Forall₂ Examples.SameShape container.groups other.groups

variable {container other : Container} {group : Examples}

theorem of?_expandRow {header row : Row}
    (hwidth : header.cells.length = row.cells.length) :
    of? (container.expandRow group header row) =
      Need.fault? header.cells container.needs := by
  let columns : Columns := ⟨header.cells, row.cells⟩
  have hfull : columns.AreFull := hwidth
  have hname (steps : List Step) :=
    of?_bind_pure (columns.substitute container.line container.name) fun name =>
      (⟨container, group, row, name, steps⟩ : ConcreteScenario)
  rw [expandRow, of?_bind _ hname, of?_mapM_eq hfull.of?_fillStep,
    hfull.of?_substitute, needs, Need.fault?_append]

/-- All data rows of a group have the same fault, so it is that of the first. -/
theorem of?_expandGroup (heven : group.IsEven) :
    of? (container.expandGroup group) = group.fault? container.needs := by
  unfold expandGroup Examples.fault?
  rcases hrows : group.rows with _ | ⟨header, rows⟩
  · simp [Examples.header?, Examples.dataRows, hrows, of?]
  · have hheader : group.header? = some header := by rw [Examples.header?, hrows]; rfl
    have hdata : group.dataRows = rows := by rw [Examples.dataRows, hrows]; rfl
    have hfaults : ∀ row ∈ rows, of? (container.expandRow group header row) =
        Need.fault? header.cells container.needs := by
      intro row hrow
      have hheaderMem : header ∈ group.rows := hrows ▸ List.mem_cons_self
      have hrowMem : row ∈ group.rows := hrows ▸ List.mem_cons_of_mem _ hrow
      exact of?_expandRow (heven header hheaderMem row hrowMem)
    simp only [hheader, hdata, Option.bind_some]
    rw [of?_mapM, findSome?_congr hfaults]
    exact findSome?_const rows _

/-- Expansion fails with the fault of the first group that lacks a column. -/
theorem of?_expand (heven : ∀ group ∈ container.groups, group.IsEven) :
    of? container.expand = container.fault? := by
  rw [expand, of?_bind_pure, of?_mapM, fault?]
  exact findSome?_congr fun group hgroup => of?_expandGroup (heven group hgroup)

theorem fault?_eq_some_iff {fault : PlaceholderFault} :
    container.fault? = some fault ↔ container.IsFirstFault fault := by
  rw [fault?, List.findSome?_eq_some_iff]
  simp only [Examples.fault?_eq_some_iff, Examples.fault?_eq_none_iff]
  constructor
  · rintro ⟨before, group, behind, hgroups, hgroup, hbefore⟩
    exact ⟨before, group, behind, hgroups, hbefore, hgroup⟩
  · rintro ⟨before, group, behind, hgroups, hbefore, hgroup⟩
    exact ⟨before, group, behind, hgroups, hgroup, hbefore⟩

theorem exists_fault?_eq_some_iff :
    (∃ fault, container.fault? = some fault) ↔
      ∃ group ∈ container.groups, ∃ need ∈ container.needs, group.Lacks need := by
  rw [← Option.ne_none_iff_exists', fault?, Ne, List.findSome?_eq_none_iff]
  simp only [Examples.fault?_eq_none_iff]
  push Not
  rfl

/-- What is wrong with an outline does not depend on the cells of data rows. -/
theorem SameTemplate.fault?_eq (hsame : container.SameTemplate other) :
    container.fault? = other.fault? := by
  have hneeds : container.needs = other.needs := by
    rw [needs, needs, hsame.steps_eq, hsame.name_eq, hsame.line_eq]
  rw [fault?, fault?, hneeds]
  have hgroups := hsame.groups
  generalize container.groups = groups, other.groups = others at hgroups
  induction hgroups with
  | nil => rfl
  | cons hshape _ ih =>
      rw [List.findSome?_cons, List.findSome?_cons, hshape.fault?_eq, ih]

theorem SameTemplate.isEven (hsame : container.SameTemplate other)
    (heven : ∀ group ∈ container.groups, group.IsEven) :
    ∀ group ∈ other.groups, group.IsEven := by
  have hgroups := hsame.groups
  generalize container.groups = groups, other.groups = others at hgroups heven
  induction hgroups with
  | nil => exact nofun
  | cons hshape _ ih =>
      rw [List.forall_mem_cons] at heven ⊢
      exact ⟨hshape.isEven heven.1, ih heven.2⟩

end Container

/-- An outline of a document that is read cannot be expanded exactly if a group of
examples with a data row lacks a column for a placeholder.  The fault names the first
such placeholder in the first such group, and what the data rows hold does not
matter. -/
theorem expand_eq_error_iff_of_parse {config : Config} {uri document : Text}
    {feature : Feature} (hparse : parse config uri document = .ok feature)
    {container : Container} (hcontainer : container ∈ feature.containers) :
    ((∃ fault, container.expand = .error fault) ↔
      ∃ group ∈ container.groups, ∃ need ∈ container.needs, group.Lacks need) ∧
    (∀ fault, container.expand = .error fault ↔ container.IsFirstFault fault) ∧
    ∀ other, container.SameTemplate other →
      ∀ fault, other.expand = .error fault ↔ container.expand = .error fault := by
  have heven : ∀ group ∈ container.groups, group.IsEven :=
    fun group hgroup => width_eq_of_mem_groups hparse hcontainer hgroup
  simp only [← of?_eq_some_iff, Container.of?_expand heven]
  refine ⟨Container.exists_fault?_eq_some_iff,
    fun fault => Container.fault?_eq_some_iff, fun other hsame fault => ?_⟩
  rw [Container.of?_expand (hsame.isEven heven), hsame.fault?_eq]

/-- An outline that needs three columns.  Its first group has no data row, and its
second has one of the columns. -/
def lackingDocument : Text :=
  ("Feature: F\nScenario Outline: S <c>\nGiven <a> <b>\n"
    ++ "Examples:\n| b |\nExamples:\n| a |\n| 1 |\n").toList

/-- The outline, with a cell in its data row. -/
def lackingOutline (cell : Text) : Container where
  uri := "u".toList
  line := 2
  comments := []
  tags := []
  keyword := "Scenario Outline".toList
  name := "S <c>".toList
  description := []
  kind := .outline
    [{  uri := "u".toList, line := 4, comments := [], tags := []
        keyword := "Examples".toList, name := [], description := []
        rows := [⟨⟨"u".toList, 5, [], []⟩, ["b".toList]⟩] },
      { uri := "u".toList, line := 6, comments := [], tags := []
        keyword := "Examples".toList, name := [], description := []
        rows :=
          [⟨⟨"u".toList, 7, [], []⟩, ["a".toList]⟩,
            ⟨⟨"u".toList, 8, [], []⟩, [cell]⟩] }]
  steps :=
    [{  uri := "u".toList, line := 3, comments := [], tags := []
        keyword := "Given".toList, kind := .given, name := "<a> <b>".toList
        docs := [], rows := [] }]

def lackingFeature : Feature where
  uri := "u".toList
  line := 1
  comments := []
  tags := []
  keyword := "Feature".toList
  name := "F".toList
  description := []
  backgrounds := []
  scenarios := [lackingOutline "1".toList]
  trailingComments := []

theorem parse_lackingDocument :
    parse {} "u".toList lackingDocument = .ok lackingFeature := rfl

theorem expand_eq_error_iff_lackingOutline :
    let fault : PlaceholderFault := ⟨"b".toList, ["a".toList], 3⟩
    parse {} "u".toList lackingDocument = .ok lackingFeature ∧
      lackingOutline "1".toList ∈ lackingFeature.containers ∧
      (lackingOutline "1".toList).SameTemplate (lackingOutline "<b>".toList) ∧
      (lackingOutline "1".toList).IsFirstFault fault ∧
      (lackingOutline "<b>".toList).expand = .error fault := by
  intro fault
  have hcontainer : lackingOutline "1".toList ∈ lackingFeature.containers :=
    List.mem_singleton.mpr rfl
  have hsame :
      (lackingOutline "1".toList).SameTemplate (lackingOutline "<b>".toList) :=
    ⟨rfl, rfl, rfl, .cons ⟨rfl, rfl⟩ (.cons ⟨rfl, rfl⟩ .nil)⟩
  have hexpand : (lackingOutline "1".toList).expand = .error fault := rfl
  obtain ⟨-, hfirst, hother⟩ :=
    expand_eq_error_iff_of_parse parse_lackingDocument hcontainer
  exact ⟨parse_lackingDocument, hcontainer, hsame, (hfirst fault).mp hexpand,
    (hother _ hsame fault).mpr hexpand⟩

end Gherkin
