import Gherkin.Outline.Expansion
import Mathlib.Data.List.Forall2

/-!
# Instances of an outline

Expanding an outline gives one scenario for each data row of its groups of examples, in
their order.  The relations below say what it is to fill in a text, a doc string, a row
or a step at a data row: a placeholder gives way to the cell below the first header of
its name, and everything else stays as it is.  They determine what is filled in, so
expansion succeeds with the scenarios that are related to the data rows in this way and
with no others.
-/

namespace Gherkin

namespace Columns

/-- What a piece of a template is filled in with: a character with itself, and a
placeholder with the value that stands where its name stands first among the headers. -/
inductive FillsPiece (columns : Columns) : Piece → Text → Prop
  | char (c : Char) : FillsPiece columns (.char c) [c]
  | placeholder {name value : Text} {place : Nat}
      (hheader : columns.headers.idxOf? name = some place)
      (hvalue : columns.values[place]? = some value) :
      FillsPiece columns (.placeholder name) value

/-- A template is filled in piece by piece. -/
def Fills (columns : Columns) (template filled : Text) : Prop :=
  ∃ parts, List.Forall₂ columns.FillsPiece template.pieces parts ∧
    filled = parts.flatten

/-- Of a doc string only the content is filled in. -/
structure FillsDoc (columns : Columns) (doc filled : DocString) : Prop where
  line_eq : filled.line = doc.line
  fence_eq : filled.fence = doc.fence
  contentType?_eq : filled.contentType? = doc.contentType?
  content : columns.Fills doc.content filled.content

/-- Of a row only the cells are filled in, each by itself. -/
structure FillsRow (columns : Columns) (row filled : Row) : Prop where
  node_eq : filled.toNode = row.toNode
  cells : List.Forall₂ columns.Fills row.cells filled.cells

/-- Of a step only the name, the doc strings and the rows are filled in. -/
structure FillsStep (columns : Columns) (step filled : Step) : Prop where
  node_eq : filled.toNode = step.toNode
  keyword_eq : filled.keyword = step.keyword
  kind_eq : filled.kind = step.kind
  name : columns.Fills step.name filled.name
  docs : List.Forall₂ columns.FillsDoc step.docs filled.docs
  rows : List.Forall₂ columns.FillsRow step.rows filled.rows

end Columns

/-- What an outline is filled in with: a data row, in its group and below its header. -/
structure Instantiation where
  group : Examples
  header : Row
  row : Row
deriving DecidableEq, Repr

def Instantiation.columns (instantiation : Instantiation) : Columns :=
  ⟨instantiation.header.cells, instantiation.row.cells⟩

/-- The rows of a group behind the first one, which is the header of them all. -/
def Examples.instantiations (group : Examples) : List Instantiation :=
  match group.rows with
  | [] => []
  | header :: rows => rows.map fun row => ⟨group, header, row⟩

/-- The data rows of all groups in their order. -/
def Container.instantiations (container : Container) : List Instantiation :=
  container.groups.flatMap Examples.instantiations

/-- The scenario is the outline filled in at the data row. -/
structure Container.Yields (outline : Container) (instantiation : Instantiation)
    (scenario : ConcreteScenario) : Prop where
  outline_eq : scenario.outline = outline
  group_eq : scenario.group = instantiation.group
  row_eq : scenario.row = instantiation.row
  line_eq : scenario.line = instantiation.row.line
  name : instantiation.columns.Fills outline.name scenario.name
  steps : List.Forall₂ instantiation.columns.FillsStep outline.steps scenario.steps

/-! ## Attempts that succeed -/

section Attempts

variable {Fault Item Result : Type}

theorem bind_eq_ok_iff {attempt : Except Fault Item}
    {next : Item → Except Fault Result} {result : Result} :
    attempt >>= next = .ok result ↔ ∃ item, attempt = .ok item ∧
      next item = .ok result := by
  cases attempt with
  | error fault => exact ⟨nofun, nofun⟩
  | ok item => simp [bind, Except.bind]

theorem pure_eq_ok_iff {item result : Item} :
    (pure item : Except Fault Item) = .ok result ↔ result = item :=
  ⟨fun heq => (Except.ok.inj heq).symm, fun heq => congrArg Except.ok heq.symm⟩

/-- Many attempts succeed if each of them does. -/
theorem mapM_eq_ok_iff {attempt : Item → Except Fault Result} {items : List Item}
    {results : List Result} :
    items.mapM attempt = .ok results ↔
      List.Forall₂ (fun item result => attempt item = .ok result) items results := by
  induction items generalizing results with
  | nil => rw [List.mapM_nil, pure_eq_ok_iff, List.forall₂_nil_left_iff]
  | cons item items ih =>
      simp only [List.mapM_cons, bind_eq_ok_iff, pure_eq_ok_iff, ih,
        List.forall₂_cons_left_iff]
      constructor
      · rintro ⟨first, hfirst, others, hothers, rfl⟩
        exact ⟨first, others, hfirst, hothers, rfl⟩
      · rintro ⟨first, others, hfirst, hothers, rfl⟩
        exact ⟨first, hfirst, others, hothers, rfl⟩

/-- Attempts at a list of lists are attempts at all that is in them. -/
theorem mapM_flatMap {Group : Type} (attempt : Item → Except Fault Result)
    (groups : List Group) (items : Group → List Item) :
    (groups.flatMap items).mapM attempt =
      (groups.mapM fun group => (items group).mapM attempt) >>= fun results =>
        pure results.flatten := by
  induction groups with
  | nil => rfl
  | cons group groups ih =>
      rw [List.flatMap_cons, List.mapM_append, List.mapM_cons, ih]
      cases (items group).mapM attempt with
      | error fault => rfl
      | ok front =>
          cases groups.mapM fun group => (items group).mapM attempt with
          | error fault => rfl
          | ok back => rfl

end Attempts

/-! ## Filling in -/

namespace Columns

variable {columns : Columns}

/-- The value of a name stands where the name stands first among the headers. -/
theorem value?_eq (columns : Columns) (name : Text) :
    columns.value? name =
      (columns.headers.idxOf? name).bind fun place => columns.values[place]? := by
  rcases columns with ⟨headers, values⟩
  rw [value?]
  induction headers generalizing values with
  | nil => rfl
  | cons header headers ih =>
      rw [List.idxOf?_cons]
      by_cases hheader : header = name
      · cases values <;> simp [hheader]
      · have hname : (name == header) = false := by simpa using Ne.symm hheader
        cases values with
        | nil => simp [hheader]
        | cons value values =>
            rw [List.zip_cons_cons, List.lookup_cons, hname]
            simpa [hheader, Option.bind_map, Function.comp_def] using ih values

theorem fillPiece_eq_ok_iff {line : Nat} {piece : Piece} {filled : Text} :
    columns.fillPiece line piece = .ok filled ↔ columns.FillsPiece piece filled := by
  cases piece with
  | char c =>
      constructor
      · intro hfilled
        rw [← Except.ok.inj hfilled]
        exact .char c
      · intro hfills
        cases hfills
        rfl
  | placeholder name =>
      rw [fillPiece]
      constructor
      · intro hfilled
        split at hfilled
        · next value hvalue =>
            obtain rfl := Except.ok.inj hfilled
            rw [value?_eq, Option.bind_eq_some_iff] at hvalue
            obtain ⟨place, hheader, hvalue⟩ := hvalue
            exact .placeholder hheader hvalue
        · cases hfilled
      · intro hfills
        cases hfills with
        | placeholder hheader hvalue =>
            rw [value?_eq, hheader, Option.bind_some, hvalue]

/-- A template is filled in exactly with what its pieces are filled in with. -/
theorem substitute_eq_ok_iff {line : Nat} {template filled : Text} :
    columns.substitute line template = .ok filled ↔ columns.Fills template filled := by
  rw [substitute, Fills]
  induction template.pieces generalizing filled with
  | nil =>
      simp only [fillPieces, List.forall₂_nil_left_iff, exists_eq_left,
        List.flatten_nil]
      exact pure_eq_ok_iff
  | cons piece pieces ih =>
      simp only [fillPieces, bind_eq_ok_iff, pure_eq_ok_iff, fillPiece_eq_ok_iff, ih,
        List.forall₂_cons_left_iff]
      constructor
      · rintro ⟨front, hfront, back, ⟨parts, hparts, rfl⟩, rfl⟩
        exact ⟨front :: parts, ⟨front, parts, hfront, hparts, rfl⟩, rfl⟩
      · rintro ⟨_, ⟨front, parts, hfront, hparts, rfl⟩, rfl⟩
        exact ⟨front, hfront, parts.flatten, ⟨parts, hparts, rfl⟩, rfl⟩

theorem fillDoc_eq_ok_iff {doc filled : DocString} :
    columns.fillDoc doc = .ok filled ↔ columns.FillsDoc doc filled := by
  simp only [fillDoc, bind_eq_ok_iff, pure_eq_ok_iff, substitute_eq_ok_iff]
  constructor
  · rintro ⟨content, hcontent, rfl⟩
    exact ⟨rfl, rfl, rfl, hcontent⟩
  · rintro ⟨hline, hfence, hcontentType, hcontent⟩
    refine ⟨filled.content, hcontent, ?_⟩
    rw [← hline, ← hfence, ← hcontentType]

theorem fillRow_eq_ok_iff {row filled : Row} :
    columns.fillRow row = .ok filled ↔ columns.FillsRow row filled := by
  simp only [fillRow, bind_eq_ok_iff, pure_eq_ok_iff, mapM_eq_ok_iff,
    substitute_eq_ok_iff]
  constructor
  · rintro ⟨cells, hcells, rfl⟩
    exact ⟨rfl, hcells⟩
  · rintro ⟨hnode, hcells⟩
    exact ⟨filled.cells, hcells, by rw [← hnode]⟩

theorem fillStep_eq_ok_iff {step filled : Step} :
    columns.fillStep step = .ok filled ↔ columns.FillsStep step filled := by
  simp only [fillStep, bind_eq_ok_iff, pure_eq_ok_iff, mapM_eq_ok_iff,
    substitute_eq_ok_iff, fillDoc_eq_ok_iff, fillRow_eq_ok_iff]
  constructor
  · rintro ⟨docs, hdocs, rows, hrows, name, hname, rfl⟩
    exact ⟨rfl, rfl, rfl, hname, hdocs, hrows⟩
  · rintro ⟨hnode, hkeyword, hkind, hname, hdocs, hrows⟩
    refine ⟨filled.docs, hdocs, filled.rows, hrows, filled.name, hname, ?_⟩
    rw [← hnode, ← hkeyword, ← hkind]

end Columns

/-! ## Expansion -/

namespace Container

variable {container : Container}

theorem expandRow_eq_ok_iff {instantiation : Instantiation}
    {scenario : ConcreteScenario} :
    container.expandRow instantiation.group instantiation.header instantiation.row =
        .ok scenario ↔
      container.Yields instantiation scenario := by
  simp only [expandRow, bind_eq_ok_iff, pure_eq_ok_iff, mapM_eq_ok_iff,
    Columns.substitute_eq_ok_iff, Columns.fillStep_eq_ok_iff]
  constructor
  · rintro ⟨steps, hsteps, name, hname, rfl⟩
    exact ⟨rfl, rfl, rfl, rfl, hname, hsteps⟩
  · rintro ⟨houtline, hgroup, hrow, -, hname, hsteps⟩
    refine ⟨scenario.steps, hsteps, scenario.name, hname, ?_⟩
    rw [← houtline, ← hgroup, ← hrow]

theorem expandGroup_eq_mapM (container : Container) (group : Examples) :
    container.expandGroup group =
      group.instantiations.mapM fun instantiation =>
        container.expandRow instantiation.group instantiation.header
          instantiation.row := by
  unfold expandGroup Examples.header? Examples.dataRows Examples.instantiations
  cases group.rows with
  | nil => rfl
  | cons header rows =>
      rw [List.mapM_map]
      rfl

/-- Expanding a container succeeds exactly with one scenario for each data row of its
groups, in their order, and each scenario is the container filled in at its data row. -/
theorem expand_eq_ok_iff {container : Container} {scenarios : List ConcreteScenario} :
    container.expand = .ok scenarios ↔
      List.Forall₂ container.Yields container.instantiations scenarios := by
  have hexpand : container.expand =
      container.instantiations.mapM fun instantiation =>
        container.expandRow instantiation.group instantiation.header
          instantiation.row := by
    rw [expand, instantiations, mapM_flatMap, funext container.expandGroup_eq_mapM]
  rw [hexpand, mapM_eq_ok_iff]
  simp only [expandRow_eq_ok_iff]

end Container

end Gherkin
