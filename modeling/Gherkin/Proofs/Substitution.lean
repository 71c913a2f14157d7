import Gherkin.Proofs.Expansion
import Gherkin.Proofs.Instantiation
import Gherkin.Proofs.Placeholders

/-!
# Filling in a template

Filling in a template looks at its placeholders twice.  A first scan asks whether all of
them have a value, and a second one puts the values in.  What is put in is not searched
again, so the values go into the result as they are.

A template that is written down as literal text and names of columns is filled in part
by part.  And if no value has an opening bracket, no placeholder is left: an opening
bracket of the result is one of the template that started no placeholder, and nothing
that is put in behind it can make it start one.
-/

namespace Gherkin

/-! ## Two scans -/

namespace Columns

variable {columns other : Columns} {line : Nat} {template out text rest : Text}
  {pieces : List Piece}

/-- What the second scan puts in for a piece.  A placeholder without a value, which the
first scan excludes, would leave nothing. -/
def replacement (columns : Columns) : Piece → Text
  | .char c => [c]
  | .placeholder name => (columns.value? name).getD []

/-- The first placeholder without a value is an error, and otherwise every placeholder
gives way to its value. -/
theorem substitute_eq_scans (columns : Columns) (line : Nat) (template : Text) :
    columns.substitute line template =
      match template.placeholders.find? fun name => (columns.value? name).isNone with
      | some name => .error ⟨name, columns.headers, line⟩
      | none => .ok (template.pieces.flatMap columns.replacement) := by
  rw [substitute, Text.placeholders]
  induction template.pieces with
  | nil => rfl
  | cons piece pieces ih =>
      rw [fillPieces, ih, List.filterMap_cons, List.flatMap_cons]
      cases piece with
      | char c =>
          dsimp only [fillPiece]
          cases List.find? _ (List.filterMap _ pieces) <;> rfl
      | placeholder name =>
          dsimp only [fillPiece]
          rw [List.find?_cons, replacement]
          cases columns.value? name with
          | none => rfl
          | some value => cases List.find? _ (List.filterMap _ pieces) <;> rfl

/-! ## Nothing is left to fill in -/

theorem mem_of_value? {name value : Text} (hvalue : columns.value? name = some value) :
    value ∈ columns.values := by
  rw [value?_eq, Option.bind_eq_some_iff] at hvalue
  obtain ⟨place, -, hvalue⟩ := hvalue
  exact List.mem_of_getElem? hvalue

theorem bracket_not_mem_replacement (hvalues : ∀ value ∈ columns.values, '<' ∉ value)
    (name : Text) : '<' ∉ columns.replacement (.placeholder name) := by
  rw [replacement]
  cases hvalue : columns.value? name with
  | none => exact List.not_mem_nil
  | some value => exact hvalues value (mem_of_value? hvalue)

/-- Without a closing bracket there is nothing to fill in. -/
theorem flatMap_replacement_of_not_mem (columns : Columns)
    (hcut : text.IsCutInto pieces)
    (hbracket : '>' ∉ text) : pieces.flatMap columns.replacement = text := by
  induction hcut with
  | nil => rfl
  | placeholder _ _ _ => simp at hbracket
  | char _ _ ih =>
      rw [List.mem_cons, not_or] at hbracket
      rw [List.flatMap_cons, ih hbracket.2]
      rfl

/-- A character that starts no placeholder of a template starts none of what is made of
the template. -/
theorem not_startsPlaceholder_cons (columns : Columns) {c : Char}
    (hrest : rest.IsCutInto pieces) (hstart : ¬ Text.StartsPlaceholder (c :: rest)) :
    ¬ Text.StartsPlaceholder (c :: pieces.flatMap columns.replacement) := by
  intro hfilled
  have hc := hfilled.eq_bracket
  cases hrest with
  | nil => exact hstart hfilled
  | placeholder _ _ =>
      -- A bracket in front of a placeholder would start one that takes it in.
      apply hstart
      apply Text.startsPlaceholder_cons_cons_iff.mpr
      exact ⟨hc, by decide, by decide, by simp⟩
  | char _ htail =>
      rw [List.flatMap_cons, replacement, List.singleton_append] at hfilled
      obtain ⟨-, hwhite, hbracket, hclosed⟩ :=
        Text.startsPlaceholder_cons_cons_iff.mp hfilled
      apply hstart
      apply Text.startsPlaceholder_cons_cons_iff.mpr
      refine ⟨hc, hwhite, hbracket, ?_⟩
      by_contra hnot
      rw [flatMap_replacement_of_not_mem columns htail hnot] at hclosed
      exact hnot hclosed

theorem not_hasPlaceholder_flatMap (hvalues : ∀ value ∈ columns.values, '<' ∉ value)
    (hcut : text.IsCutInto pieces) :
    ¬ Text.HasPlaceholder (pieces.flatMap columns.replacement) := by
  induction hcut with
  | nil => exact Text.not_hasPlaceholder_nil
  | placeholder _ _ ih =>
      intro hhas
      exact ih (hhas.of_append (bracket_not_mem_replacement hvalues _))
  | char hstart hrest ih =>
      rw [List.flatMap_cons, replacement, List.singleton_append,
        Text.hasPlaceholder_cons_iff, not_or]
      exact ⟨not_startsPlaceholder_cons columns hrest hstart, ih⟩

theorem flatMap_replacement_char (columns : Columns) (text : Text) :
    (text.map Piece.char).flatMap columns.replacement = text := by
  rw [List.flatMap_map]
  exact List.flatMap_singleton' text

/-- A text without placeholders stays as it is, whatever there is to put in. -/
theorem substitute_of_not_hasPlaceholder (columns : Columns) (line : Nat)
    (hnone : ¬ text.HasPlaceholder) : columns.substitute line text = .ok text := by
  have hpieces := Text.pieces_eq_iff.mpr (Text.IsCutInto.of_not_hasPlaceholder hnone)
  have hnames : text.placeholders = [] := by
    rw [Text.placeholders, hpieces, List.filterMap_map]
    exact List.filterMap_eq_nil_iff.mpr fun _ _ => rfl
  rw [substitute_eq_scans, hnames, hpieces, flatMap_replacement_char]
  rfl

/-- If no value has an opening bracket, a template that is filled in has no placeholder
left, and filling it in once more changes nothing. -/
theorem substitute_leaves_no_placeholder
    (hvalues : ∀ value ∈ columns.values, '<' ∉ value)
    (hsubstitute : columns.substitute line template = .ok out) :
    ¬ out.HasPlaceholder ∧
      ∀ (other : Columns) (line : Nat), other.substitute line out = .ok out := by
  have hnone : ¬ out.HasPlaceholder := by
    rw [substitute_eq_scans] at hsubstitute
    split at hsubstitute
    · cases hsubstitute
    · rw [← Except.ok.inj hsubstitute]
      exact not_hasPlaceholder_flatMap hvalues (Text.isCutInto_pieces template)
  exact ⟨hnone, fun other line => other.substitute_of_not_hasPlaceholder line hnone⟩

end Columns

/-- Columns of which one is called like the end of two brackets.  One value is empty,
and the other one has a closing bracket and white space. -/
def closingColumns : Columns where
  headers := ["a".toList, "<b".toList]
  values := [[], "> x".toList]

/-- Behind the first bracket that starts no placeholder another one gives way to
nothing, and behind the last one there are blanks. -/
theorem substitute_leaves_no_placeholder_closingColumns :
    let template := "<\t<a><<b>< <a>>".toList
    let filled := "<\t> x< >".toList
    (∀ value ∈ closingColumns.values, '<' ∉ value) ∧
      closingColumns.substitute 3 template = .ok filled ∧
      ¬ Text.HasPlaceholder filled ∧
      closingColumns.substitute 5 filled = .ok filled := by
  intro template filled
  have hvalues : ∀ value ∈ closingColumns.values, '<' ∉ value := by decide +kernel
  have hfilled : closingColumns.substitute 3 template = .ok filled := rfl
  obtain ⟨hnone, hagain⟩ := Columns.substitute_leaves_no_placeholder hvalues hfilled
  exact ⟨hvalues, hfilled, hnone, hagain closingColumns 5⟩

/-! ## Templates put together from parts -/

/-- A part of a template as it is written down: literal text, or the name of a column.
-/
inductive Fragment where
  | literal (text : Text)
  | column (name : Text)
deriving DecidableEq, Repr

namespace Text

/-- Directly behind every opening bracket of the text there is white space or a closing
bracket, which belongs to the text as well. -/
def IsInert (text : Text) : Prop :=
  ∀ back, '<' :: back <:+ text → ∃ c ∈ back.head?, isWhite c = true ∨ c = '>'

end Text

namespace Fragment

variable {headers : List Text} {fragments : List Fragment}

/-- The fragment as written. -/
def text : Fragment → Text
  | literal text => text
  | column name => '<' :: name ++ ['>']

/-- The pieces that are found in the fragment. -/
def pieces : Fragment → List Piece
  | literal text => text.map .char
  | column name => [.placeholder name]

/-- The fragment means what it says below these headers: its text has no bracket that
could start a placeholder, or its name is that of a column. -/
inductive IsFor (headers : List Text) : Fragment → Prop
  | literal {text : Text} (hinert : text.IsInert) : IsFor headers (.literal text)
  | column {name : Text} (hname : name.IsColumnName) (hheader : name ∈ headers) :
      IsFor headers (.column name)

end Fragment

/-- What a fragment is filled in with: text with itself, and the name of a column with
the value that stands where the name stands first among the headers. -/
inductive Columns.FillsFragment (columns : Columns) : Fragment → Text → Prop
  | literal (text : Text) : FillsFragment columns (.literal text) text
  | column {name value : Text} {place : Nat}
      (hheader : columns.headers.idxOf? name = some place)
      (hvalue : columns.values[place]? = some value) :
      FillsFragment columns (.column name) value

namespace Text

variable {text rest : Text} {pieces : List Piece}

theorem isInert_nil : IsInert [] := by
  intro back hback
  cases List.suffix_nil.mp hback

theorem isInert_cons_iff {c : Char} :
    IsInert (c :: text) ↔
      (c = '<' → ∃ d ∈ text.head?, isWhite d = true ∨ d = '>') ∧ text.IsInert := by
  constructor
  · intro hinert
    constructor
    · rintro rfl
      exact hinert text List.suffix_rfl
    · exact fun back hback => hinert back (hback.trans (List.suffix_cons c text))
  · rintro ⟨hfirst, hrest⟩ back hback
    rcases List.suffix_cons_iff.mp hback with heq | hback
    · obtain ⟨rfl, rfl⟩ := List.cons.inj heq
      exact hfirst rfl
    · exact hrest back hback

instance IsInert.decidable : (text : Text) → Decidable text.IsInert
  | [] => .isTrue isInert_nil
  | c :: text =>
      have := IsInert.decidable text
      decidable_of_iff
        ((c = '<' → text.head?.any (fun d => isWhite d || d == '>') = true) ∧
          IsInert text)
        (by simp [isInert_cons_iff, Option.any_eq_true])

/-- Inert text falls into its characters, whatever is behind it. -/
theorem IsCutInto.append (hrest : rest.IsCutInto pieces) (hinert : text.IsInert) :
    (text ++ rest).IsCutInto (text.map .char ++ pieces) := by
  induction text with
  | nil => exact hrest
  | cons c text ih =>
      obtain ⟨hfirst, htext⟩ := isInert_cons_iff.mp hinert
      refine .char ?_ (ih htext)
      intro hstart
      obtain ⟨d, hd, hbehind⟩ := hfirst hstart.eq_bracket
      obtain ⟨tail, rfl⟩ := List.head?_eq_some_iff.mp hd
      obtain ⟨-, hwhite, hbracket, -⟩ := startsPlaceholder_cons_cons_iff.mp hstart
      rcases hbehind with hbehind | hbehind
      · rw [hwhite] at hbehind
        cases hbehind
      · exact hbracket hbehind

end Text

namespace Fragment

variable {headers : List Text} {fragments : List Fragment}

theorem isCutInto_flatMap
    (hfragments : ∀ fragment ∈ fragments, fragment.IsFor headers) :
    Text.IsCutInto (fragments.flatMap text) (fragments.flatMap pieces) := by
  induction fragments with
  | nil => exact .nil
  | cons fragment fragments ih =>
      obtain ⟨hfragment, hrest⟩ := List.forall_mem_cons.mp hfragments
      rw [List.flatMap_cons, List.flatMap_cons]
      cases hfragment with
      | literal hinert => exact (ih hrest).append hinert
      | column hname _ =>
          rw [text, List.append_assoc, List.singleton_append]
          exact .placeholder hname (ih hrest)

/-- The placeholders of what is written down are the columns that are named. -/
theorem mem_of_mem_placeholders
    (hfragments : ∀ fragment ∈ fragments, fragment.IsFor headers)
    {name : Text} (hname : name ∈ Text.placeholders (fragments.flatMap text)) :
    name ∈ headers := by
  rw [Text.placeholders, Text.pieces_eq_iff.mpr (isCutInto_flatMap hfragments),
    List.mem_filterMap] at hname
  obtain ⟨piece, hpiece, hname⟩ := hname
  obtain ⟨fragment, hfragment, hpiece⟩ := List.mem_flatMap.mp hpiece
  cases hfragments fragment hfragment with
  | literal _ =>
      obtain ⟨c, -, rfl⟩ := List.mem_map.mp hpiece
      cases hname
  | column _ hheader =>
      rw [List.mem_singleton.mp hpiece] at hname
      rwa [← Option.some.inj hname]

end Fragment

namespace Columns

variable {columns : Columns} {fragments : List Fragment}

theorem AreFull.fillsFragment (hfull : columns.AreFull) {fragment : Fragment}
    (hfragment : fragment.IsFor columns.headers) :
    columns.FillsFragment fragment (fragment.pieces.flatMap columns.replacement) := by
  cases hfragment with
  | @literal text _ =>
      rw [Fragment.pieces, flatMap_replacement_char]
      exact .literal text
  | @column name _ hheader =>
      rw [Fragment.pieces, List.flatMap_singleton, replacement]
      cases hvalue : columns.value? name with
      | none => exact absurd hheader ((hfull.value?_eq_none_iff name).mp hvalue)
      | some value =>
          rw [value?_eq, Option.bind_eq_some_iff] at hvalue
          obtain ⟨place, hplace, hvalue⟩ := hvalue
          exact .column hplace hvalue

/-- A template that is put together from literal text and names of columns is filled in
with the text as it is and, for each name, the value of the first column of that name.
-/
theorem substitute_fragments (hfull : columns.AreFull)
    (hfragments : ∀ fragment ∈ fragments, fragment.IsFor columns.headers) (line : Nat) :
    ∃ parts, List.Forall₂ columns.FillsFragment fragments parts ∧
      columns.substitute line (fragments.flatMap Fragment.text) =
        .ok parts.flatten := by
  have hpieces := Text.pieces_eq_iff.mpr (Fragment.isCutInto_flatMap hfragments)
  have hvalues : (Text.placeholders (fragments.flatMap Fragment.text)).find?
      (fun name => (columns.value? name).isNone) = none := by
    apply List.find?_eq_none.mpr
    intro name hname hnone
    have hheader := Fragment.mem_of_mem_placeholders hfragments hname
    exact (hfull.value?_eq_none_iff name).mp
      (Option.isNone_iff_eq_none.mp hnone) hheader
  refine ⟨fragments.map fun fragment => fragment.pieces.flatMap columns.replacement,
    ?_, ?_⟩
  · rw [List.forall₂_map_right_iff, List.forall₂_same]
    exact fun fragment hfragment => hfull.fillsFragment (hfragments fragment hfragment)
  · rw [substitute_eq_scans, hvalues, hpieces, List.flatMap_assoc]
    rfl

end Columns

/-- Columns of which two have the same name and one has a bracket in its name.  A value
looks like a placeholder, and another one is empty. -/
def crowdedColumns : Columns where
  headers := ["n".toList, "a <b".toList, "n".toList]
  values := ["<n> $1\n".toList, [], "2".toList]

/-- Brackets that start no placeholder, and two columns next to each other. -/
def crowdedFragments : List Fragment :=
  [.literal "1 < 2 <> ".toList, .column "a <b".toList, .column "n".toList,
    .literal "> x".toList]

theorem substitute_fragments_crowdedColumns :
    let template := "1 < 2 <> <a <b><n>> x".toList
    let filled := "1 < 2 <> <n> $1\n> x".toList
    crowdedColumns.AreFull ∧
      (∀ fragment ∈ crowdedFragments, fragment.IsFor crowdedColumns.headers) ∧
      crowdedFragments.flatMap Fragment.text = template ∧
      ∃ parts, List.Forall₂ crowdedColumns.FillsFragment crowdedFragments parts ∧
        parts.flatten = filled ∧ crowdedColumns.substitute 3 template = .ok filled := by
  intro template filled
  have hfull : crowdedColumns.AreFull := rfl
  have hfragments : ∀ fragment ∈ crowdedFragments,
      fragment.IsFor crowdedColumns.headers := by
    simp only [crowdedFragments, List.forall_mem_cons]
    exact ⟨.literal (by decide +kernel),
      .column (by decide +kernel) (by decide +kernel),
      .column (by decide +kernel) (by decide +kernel), .literal (by decide +kernel),
      List.forall_mem_nil _⟩
  have hfilled : crowdedColumns.substitute 3 template = .ok filled := rfl
  obtain ⟨parts, hparts, hsubstitute⟩ :=
    Columns.substitute_fragments hfull hfragments 3
  refine ⟨hfull, hfragments, rfl, parts, hparts, ?_, hfilled⟩
  exact Except.ok.inj (hsubstitute.symm.trans hfilled)

end Gherkin
