import Gherkin.Proofs.Text.Trimmed
import Gherkin.Row.Cells
import Mathlib.Data.List.Forall2

/-!
# Cells are read as they were written

A row that is decoded has at least one cell, and no cell has blanks at its edges.
Cells like these are what a row can hold: encoded they decode to themselves,
whatever characters they are made of.  Blanks around a cell are its padding and are
dropped, so an encoded row may be spaced in any way.
-/

namespace Gherkin.Cells

/-- What decoding a row can yield. -/
structure AreTrimmed (cells : List Text) : Prop where
  ne_nil : cells ≠ []
  trimmed : ∀ cell ∈ cells, cell.IsTrimmed isBlank

theorem decode_of_trimBlanks_eq {raw body : Text}
    (hraw : raw.trimBlanks = '|' :: body) :
    decode raw =
      let pieces := (split body).map Text.trimBlanks
      if pieces.getLast?.any fun leftover => !leftover.isEmpty then
        .error .noClosingPipe
      else if pieces.dropLast.isEmpty then
        .error .noCells
      else
        .ok pieces.dropLast := by
  rw [decode, hraw]
  rfl

/-- A line that starts with a pipe lacks something else if it is no row. -/
theorem decode_pipe_ne_noOpeningPipe (rest : Text) :
    decode ('|' :: rest) ≠ .error .noOpeningPipe := by
  have hblank : isBlank '|' = false := by decide
  have hraw : Text.trimBlanks ('|' :: rest) = '|' :: rest.dropEndWhile isBlank :=
    (Text.isTrimmed_singleton hblank).trimWhile_append (List.cons_ne_nil _ _) rest
  rw [decode_of_trimBlanks_eq hraw]
  dsimp only
  split
  · exact nofun
  · split <;> exact nofun

/-- The cells of a row are the pieces behind its first pipe, without blanks around them
and without what is behind the last pipe. -/
theorem exists_of_decode {raw : Text} {cells : List Text}
    (hcells : decode raw = .ok cells) :
    ∃ body, raw.trimBlanks = '|' :: body ∧ cells ≠ [] ∧
      cells = ((split body).map Text.trimBlanks).dropLast := by
  obtain ⟨body, hraw⟩ : ∃ body, raw.trimBlanks = '|' :: body := by
    unfold decode at hcells
    split at hcells
    · next body hraw => exact ⟨body, hraw⟩
    · cases hcells
  rw [decode_of_trimBlanks_eq hraw] at hcells
  dsimp only at hcells
  split at hcells
  · cases hcells
  · split at hcells
    · cases hcells
    · next hempty =>
        obtain rfl := Except.ok.inj hcells
        exact ⟨body, hraw, fun hnil => hempty (List.isEmpty_iff.mpr hnil), rfl⟩

theorem areTrimmed_of_decode {raw : Text} {cells : List Text}
    (hcells : decode raw = .ok cells) : AreTrimmed cells := by
  obtain ⟨body, -, hne, rfl⟩ := exists_of_decode hcells
  refine ⟨hne, fun cell hcell => ?_⟩
  obtain ⟨piece, -, rfl⟩ := List.mem_map.mp (List.dropLast_subset _ hcell)
  exact Text.isTrimmed_trimWhile isBlank piece

/-! ## What cells are made of -/

theorem push_subset {c : Char} {pieces : List Text} {source : Text} (hc : c ∈ source)
    (hpieces : ∀ piece ∈ pieces, piece ⊆ source) :
    ∀ piece ∈ push c pieces, piece ⊆ source := by
  cases pieces with
  | nil =>
      exact List.forall_mem_singleton.mpr (List.cons_subset.mpr ⟨hc, List.nil_subset _⟩)
  | cons first others =>
      obtain ⟨hfirst, hothers⟩ := List.forall_mem_cons.mp hpieces
      exact List.forall_mem_cons.mpr ⟨List.cons_subset.mpr ⟨hc, hfirst⟩, hothers⟩

/-- An escape stands for a character of the row or for a line feed. -/
theorem split_subset {source : Text} (hlineFeed : '\n' ∈ source) {text : Text}
    (htext : text ⊆ source) : ∀ piece ∈ split text, piece ⊆ source := by
  induction text using split.induct with
  | case1 => exact List.forall_mem_singleton.mpr (List.nil_subset _)
  | case2 rest ih =>
      have hrest := ih (List.subset_of_cons_subset htext)
      exact List.forall_mem_cons.mpr ⟨List.nil_subset _, hrest⟩
  | case3 rest ih | case4 rest ih =>
      obtain ⟨hc, hrest⟩ := List.cons_subset.mp (List.subset_of_cons_subset htext)
      exact push_subset hc (ih hrest)
  | case5 rest ih =>
      have hrest := List.subset_of_cons_subset (List.subset_of_cons_subset htext)
      exact push_subset hlineFeed (ih hrest)
  | case6 c rest _ _ _ _ ih =>
      obtain ⟨hc, hrest⟩ := List.cons_subset.mp htext
      rw [split]
      · exact push_subset hc (ih hrest)
      all_goals assumption

/-- A cell is made of characters of its row and of line feeds. -/
theorem subset_of_decode {raw source : Text} {cells : List Text}
    (hlineFeed : '\n' ∈ source) (hraw : raw ⊆ source)
    (hcells : decode raw = .ok cells) :
    ∀ cell ∈ cells, cell ⊆ source := by
  obtain ⟨body, hbody, -, rfl⟩ := exists_of_decode hcells
  have htrim : '|' :: body ⊆ source :=
    hbody ▸ List.Subset.trans (Text.trimWhile_subset isBlank raw) hraw
  intro cell hcell
  obtain ⟨piece, hpiece, rfl⟩ := List.mem_map.mp (List.dropLast_subset _ hcell)
  have hpieces := split_subset hlineFeed (List.subset_of_cons_subset htrim)
  exact List.Subset.trans (Text.trimWhile_subset isBlank piece) (hpieces piece hpiece)

theorem push_cons (c : Char) (piece : Text) (pieces : List Text) :
    push c (piece :: pieces) = (c :: piece) :: pieces := rfl

/-- An ordinary character belongs to the piece it stands in. -/
theorem split_cons {c : Char} (hpipe : c ≠ '|') (hbackslash : c ≠ '\\') (rest : Text) :
    split (c :: rest) = push c (split rest) := by
  rw [split]
  all_goals simp_all

/-- An escaped cell is read back in front of whatever follows. -/
theorem split_escape_append (cell : Text) {rest piece : Text} {pieces : List Text}
    (hrest : split rest = piece :: pieces) :
    split (escape cell ++ rest) = (cell ++ piece) :: pieces := by
  induction cell using escape.induct with
  | case1 => exact hrest
  | case2 cell ih | case3 cell ih | case4 cell ih =>
      simp only [escape, List.cons_append, split, ih, push_cons]
  | case5 c cell hbackslash hpipe _ ih =>
      rw [escape, List.cons_append, split_cons hpipe hbackslash, ih, push_cons,
        List.cons_append]
      all_goals assumption

theorem lineFeed_not_mem_escape (cell : Text) : '\n' ∉ escape cell := by
  induction cell using escape.induct with
  | case1 => exact nofun
  | case2 cell ih | case3 cell ih | case4 cell ih => simpa [escape] using ih
  | case5 c cell _ _ hlineFeed ih => simpa [escape, *] using Ne.symm hlineFeed

/-! ## Written rows -/

/-- What stands between two pipes is the escaped cell, with any blanks around it. -/
def Pads (cell piece : Text) : Prop :=
  ∃ before after : Text, (∀ c ∈ before, isBlank c = true) ∧
    (∀ c ∈ after, isBlank c = true) ∧ piece = before ++ (escape cell ++ after)

/-- The row holds the cells between pipes, with any blanks around it. -/
def Writes (cells : List Text) (raw : Text) : Prop :=
  ∃ (front back : Text) (pieces : List Text), (∀ c ∈ front, isBlank c = true) ∧
    (∀ c ∈ back, isBlank c = true) ∧ List.Forall₂ Pads cells pieces ∧
      raw = front ++ ('|' :: pieces.flatMap (· ++ ['|']) ++ back)

/-- Blanks belong to the piece they stand in front of. -/
theorem split_blanks_append {front rest piece : Text} {pieces : List Text}
    (hfront : ∀ c ∈ front, isBlank c = true) (hrest : split rest = piece :: pieces) :
    split (front ++ rest) = (front ++ piece) :: pieces := by
  induction front with
  | nil => exact hrest
  | cons c front ih =>
      obtain ⟨hc, hfront⟩ := List.forall_mem_cons.mp hfront
      have hpipe : c ≠ '|' := by
        rintro rfl
        exact absurd hc (by decide)
      have hbackslash : c ≠ '\\' := by
        rintro rfl
        exact absurd hc (by decide)
      rw [List.cons_append, split_cons hpipe hbackslash, ih hfront, push_cons,
        List.cons_append]

/-- A padded cell is split off at the pipe behind it, and trimming drops its padding. -/
theorem Pads.exists_split {cell piece : Text} (hpads : Pads cell piece)
    (hcell : cell.IsTrimmed isBlank) (rest : Text) :
    ∃ padded : Text, split (piece ++ '|' :: rest) = padded :: split rest ∧
      padded.trimBlanks = cell := by
  obtain ⟨before, after, hbefore, hafter, rfl⟩ := hpads
  refine ⟨before ++ (cell ++ after), ?_, hcell.trimWhile_pad hbefore hafter⟩
  have hpipe : split (after ++ '|' :: rest) = (after ++ []) :: split rest :=
    split_blanks_append hafter (by rw [split])
  rw [List.append_nil] at hpipe
  rw [List.append_assoc, List.append_assoc]
  exact split_blanks_append hbefore (split_escape_append cell hpipe)

/-- The pieces of a written row are its cells, and nothing behind the last pipe. -/
theorem map_trimBlanks_split {cells pieces : List Text}
    (hpads : List.Forall₂ Pads cells pieces)
    (hcells : ∀ cell ∈ cells, cell.IsTrimmed isBlank) :
    (split (pieces.flatMap (· ++ ['|']))).map Text.trimBlanks = cells ++ [[]] := by
  induction hpads with
  | nil => rfl
  | @cons cell piece cells pieces hpad _ ih =>
      obtain ⟨hcell, hcells⟩ := List.forall_mem_cons.mp hcells
      obtain ⟨padded, hsplit, htrim⟩ :=
        hpad.exists_split hcell (pieces.flatMap (· ++ ['|']))
      rw [List.flatMap_cons, List.append_assoc, List.singleton_append, hsplit,
        List.map_cons, htrim, ih hcells, List.cons_append]

/-- A row begins and ends with a pipe. -/
theorem isTrimmed_pipes {p : Char → Bool} (hpipe : p '|' = false) {pieces : List Text}
    (hpieces : pieces ≠ []) :
    Text.IsTrimmed p ('|' :: pieces.flatMap (· ++ ['|'])) := by
  obtain ⟨front, last, rfl⟩ :=
    (List.eq_nil_or_concat' pieces).resolve_left hpieces
  constructor
  · simpa using hpipe
  · simpa [List.getLast?_cons] using hpipe

/-- Cells that a row can hold are read as they were written, whatever blanks there are
around them. -/
theorem decode_of_writes {cells : List Text} {raw : Text} (hcells : AreTrimmed cells)
    (hwrites : Writes cells raw) : decode raw = .ok cells := by
  obtain ⟨front, back, pieces, hfront, hback, hpads, rfl⟩ := hwrites
  have hpieces : pieces ≠ [] := by
    rintro rfl
    exact hcells.ne_nil (List.forall₂_nil_right_iff.mp hpads)
  have htrim := (isTrimmed_pipes (by decide) hpieces).trimWhile_pad hfront hback
  rw [decode_of_trimBlanks_eq htrim, map_trimBlanks_split hpads hcells.trimmed]
  simp [hcells.ne_nil]

/-! ## Encoded rows -/

/-- In an encoded row every cell has a space on either side. -/
theorem encode_eq (cells : List Text) :
    encode cells =
      '|' :: (cells.map fun cell => [' '] ++ (escape cell ++ [' '])).flatMap
        (· ++ ['|']) := by
  rw [encode, List.flatMap_map]
  refine congrArg ('|' :: ·) (List.flatMap_congr fun cell _ => ?_)
  simp

theorem writes_encode (cells : List Text) : Writes cells (encode cells) := by
  have hspace : ∀ c ∈ [' '], isBlank c = true := List.forall_mem_singleton.mpr rfl
  refine ⟨[], [], cells.map fun cell => [' '] ++ (escape cell ++ [' ']), nofun, nofun,
    ?_, ?_⟩
  · exact List.forall₂_map_right_iff.mpr
      (List.forall₂_same.mpr fun cell _ => ⟨[' '], [' '], hspace, hspace, rfl⟩)
  · rw [encode_eq, List.append_nil]
    rfl

theorem isTrimmed_encode {p : Char → Bool} (hpipe : p '|' = false) {cells : List Text}
    (hcells : cells ≠ []) : (encode cells).IsTrimmed p := by
  rw [encode_eq]
  exact isTrimmed_pipes hpipe (mt List.map_eq_nil_iff.mp hcells)

theorem lineFeed_not_mem_encode (cells : List Text) : '\n' ∉ encode cells := by
  simp [encode, lineFeed_not_mem_escape]

/-- Cells that a row can hold are read as they were written. -/
theorem decode_encode {cells : List Text} (hcells : AreTrimmed cells) :
    decode (encode cells) = .ok cells :=
  decode_of_writes hcells (writes_encode cells)

/-- Trimmed cells can be written, and every row that is written from them is read as
them.  The cells of any row are trimmed, so they are read back from whatever row they
are written as. -/
theorem rows_read_back (cells : List Text) :
    (AreTrimmed cells →
        Writes cells (encode cells) ∧
          ∀ raw, Writes cells raw → decode raw = .ok cells) ∧
      ∀ raw, decode raw = .ok cells →
        AreTrimmed cells ∧ decode (encode cells) = .ok cells ∧
          ∀ again, Writes cells again → decode again = .ok cells := by
  constructor
  · exact fun hcells => ⟨writes_encode cells, fun raw => decode_of_writes hcells⟩
  · intro raw hdecode
    have hcells := areTrimmed_of_decode hdecode
    exact ⟨hcells, decode_encode hcells, fun again => decode_of_writes hcells⟩

/-- Cells with a pipe behind a backslash, without anything, with a line feed and a
no-break space, and with a backslash at the end. -/
def intricateCells : List Text :=
  ["\\|".toList, [], "\n\u00A0".toList, "a b\\".toList]

/-- A row that holds them, unevenly spaced. -/
def intricateRow : Text :=
  "\t|  \\\\\\||\t| \\n\u00A0|a b\\\\ \t| ".toList

theorem rows_read_back_intricateRow :
    AreTrimmed intricateCells ∧ Writes intricateCells intricateRow ∧
      decode intricateRow = .ok intricateCells ∧
      decode (encode intricateCells) = .ok intricateCells := by
  have hcells : AreTrimmed intricateCells := ⟨by decide +kernel, by decide +kernel⟩
  have hwrites : Writes intricateCells intricateRow := by
    have hspace : ∀ c ∈ " ".toList, isBlank c = true := List.all_eq_true.mp rfl
    have hspaces : ∀ c ∈ "  ".toList, isBlank c = true := List.all_eq_true.mp rfl
    have htab : ∀ c ∈ "\t".toList, isBlank c = true := List.all_eq_true.mp rfl
    have hboth : ∀ c ∈ " \t".toList, isBlank c = true := List.all_eq_true.mp rfl
    refine ⟨"\t".toList, " ".toList,
      ["  \\\\\\|".toList, "\t".toList, " \\n\u00A0".toList, "a b\\\\ \t".toList],
      htab, hspace, ?_, rfl⟩
    exact
      .cons ⟨"  ".toList, [], hspaces, nofun, rfl⟩
        (.cons ⟨"\t".toList, [], htab, nofun, rfl⟩
          (.cons ⟨" ".toList, [], hspace, nofun, rfl⟩
            (.cons ⟨[], " \t".toList, nofun, hboth, rfl⟩ .nil)))
  have hread := ((rows_read_back intricateCells).1 hcells).2 intricateRow hwrites
  exact ⟨hcells, hwrites, hread,
    ((rows_read_back intricateCells).2 intricateRow hread).2.1⟩

end Gherkin.Cells
