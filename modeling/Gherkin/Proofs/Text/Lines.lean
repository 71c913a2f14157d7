import Gherkin.Proofs.Text.Trimmed
import Gherkin.Text.Lines

/-!
# Texts and their lines

A text is cut into lines from the left, one line feed at a time.  So the lines of two
parts are the lines of the whole if the first part ends a line, and the number of lines
can be counted in the text itself.  A carriage return at the end of a line is dropped
behind everything else, whatever the line starts with.
-/

namespace Gherkin.Text

variable {above below : Text}

/-- The text is empty or its last line is ended. -/
def EndsLine (text : Text) : Prop :=
  ∀ c ∈ text.getLast?, c = '\n'

theorem EndsLine.of_isSuffix {back text : Text} (hend : text.EndsLine)
    (hback : back <:+ text) : back.EndsLine :=
  fun c hc => hend c (getLast?_of_isSuffix hback c hc)

theorem splitLines_eq_nil_iff {text : Text} : splitLines text = [] ↔ text = [] := by
  cases text with
  | nil => simp
  | cons c text =>
      rw [splitLines]
      split
      · simp
      · split <;> simp

/-- Behind an ended line the next one starts. -/
theorem splitLines_append (hend : above.EndsLine) (below : Text) :
    splitLines (above ++ below) = splitLines above ++ splitLines below := by
  induction above with
  | nil => rfl
  | cons c above ih =>
      have hrest := ih (hend.of_isSuffix (List.suffix_cons c above))
      by_cases hc : c = '\n'
      · rw [hc, List.cons_append, splitLines_lineFeed, hrest, splitLines_lineFeed,
          List.cons_append]
      · have hne : splitLines above ≠ [] := by
          rw [Ne, splitLines_eq_nil_iff]
          rintro rfl
          exact hc (hend c rfl)
        obtain ⟨line, lines, hsplit⟩ := List.exists_cons_of_ne_nil hne
        simp only [List.cons_append, splitLines, if_neg hc, hrest, hsplit]

theorem dropByteOrderMark_isSuffix (text : Text) : text.dropByteOrderMark <:+ text := by
  unfold dropByteOrderMark
  split
  · exact List.suffix_cons _ _
  · exact List.suffix_rfl

theorem dropByteOrderMark_of_head? {text : Text} (hhead : text.head? ≠ some '\uFEFF') :
    text.dropByteOrderMark = text := by
  unfold dropByteOrderMark
  split
  · exact absurd rfl hhead
  · rfl

theorem dropByteOrderMark_append (habove : above ≠ []) (below : Text) :
    (above ++ below).dropByteOrderMark = above.dropByteOrderMark ++ below := by
  obtain ⟨c, rest, rfl⟩ := List.exists_cons_of_ne_nil habove
  by_cases hc : c = '\uFEFF'
  · rw [hc]
    rfl
  · have hhead (text : Text) : (c :: text).head? ≠ some '\uFEFF' :=
      fun hmark => hc (Option.some.inj hmark)
    rw [List.cons_append, dropByteOrderMark_of_head? (hhead _),
      dropByteOrderMark_of_head? (hhead _), List.cons_append]

/-- A byte order mark counts as one only in front of everything. -/
theorem lines_append (hend : above.EndsLine)
    (hmark : above = [] → below.head? ≠ some '\uFEFF') :
    lines (above ++ below) = lines above ++ (splitLines below).map dropReturn := by
  by_cases habove : above = []
  · rw [habove, List.nil_append, lines, dropByteOrderMark_of_head? (hmark habove)]
    rfl
  · rw [lines, dropByteOrderMark_append habove,
      splitLines_append (hend.of_isSuffix (dropByteOrderMark_isSuffix above)),
      List.map_append, lines]

/-- A line put between two parts is a line of the whole. -/
theorem lines_insert_line {line : Text} (hend : above.EndsLine) (hline : '\n' ∉ line)
    (hmark : line.head? ≠ some '\uFEFF') (below : Text) :
    lines (above ++ (line ++ '\n' :: below)) =
      lines above ++ line.dropReturn :: (splitLines below).map dropReturn := by
  have hhead : (line ++ '\n' :: below).head? ≠ some '\uFEFF' := by
    cases line with
    | nil => exact nofun
    | cons c line => exact hmark
  rw [lines_append hend fun _ => hhead, splitLines_line hline, List.map_cons]

/-- Lines that are each ended by a line feed are the lines of the text they make up. -/
theorem splitLines_flatMap {lines : List Text} (hlines : ∀ line ∈ lines, '\n' ∉ line) :
    splitLines (lines.flatMap fun line => line ++ ['\n']) = lines := by
  induction lines with
  | nil => rfl
  | cons line lines ih =>
      obtain ⟨hline, hlines⟩ := List.forall_mem_cons.mp hlines
      rw [List.flatMap_cons, List.append_assoc, List.singleton_append,
        splitLines_line hline, ih hlines]

/-! ## Counting lines -/

instance (text : Text) : Decidable text.EndsLine :=
  decidable_of_iff (text.getLast?.all (· == '\n') = true)
    (by simp [EndsLine, Option.all_eq_true])

/-- Only the end of a text matters. -/
theorem endsLine_append_iff {back : Text} (hback : back ≠ []) (front : Text) :
    (front ++ back).EndsLine ↔ back.EndsLine := by
  simp only [EndsLine, List.getLast?_append_of_ne_nil front hback]

/-- The number of line feeds, and one more for a remainder behind the last of them. -/
def lineCount (text : Text) : Nat :=
  text.count '\n' + if text.EndsLine then 0 else 1

theorem lineCount_lineFeed (rest : Text) :
    lineCount ('\n' :: rest) = rest.lineCount + 1 := by
  have hend : EndsLine ('\n' :: rest) ↔ rest.EndsLine := by
    by_cases hrest : rest = []
    · simp [hrest, EndsLine]
    · exact endsLine_append_iff hrest ['\n']
  simp only [lineCount, List.count_cons_self, hend]
  omega

theorem lineCount_cons {c : Char} {rest : Text} (hc : c ≠ '\n') (hrest : rest ≠ []) :
    lineCount (c :: rest) = rest.lineCount := by
  have hend : EndsLine (c :: rest) ↔ rest.EndsLine := endsLine_append_iff hrest [c]
  simp only [lineCount, List.count_cons_of_ne hc, hend]

theorem length_splitLines (text : Text) : text.splitLines.length = text.lineCount := by
  induction text with
  | nil =>
      have hend : EndsLine [] := nofun
      rw [lineCount, if_pos hend]
      rfl
  | cons c rest ih =>
      by_cases hc : c = '\n'
      · rw [hc, splitLines_lineFeed, lineCount_lineFeed, List.length_cons, ih]
      by_cases hrest : rest = []
      · simp [hrest, splitLines, lineCount, EndsLine, hc]
      · obtain ⟨line, lines, hsplit⟩ :=
          List.exists_cons_of_ne_nil (mt splitLines_eq_nil_iff.mp hrest)
        rw [lineCount_cons hc hrest, ← ih, splitLines, if_neg hc, hsplit]
        rfl

/-- A line feed behind a line that is not ended adds no line. -/
theorem splitLines_concat_lineFeed {text : Text} (hend : ¬ text.EndsLine) :
    splitLines (text ++ ['\n']) = splitLines text := by
  induction text with
  | nil => exact absurd nofun hend
  | cons c rest ih =>
      by_cases hrest : rest = []
      · have hc : c ≠ '\n' := by
          intro hc
          apply hend
          rw [hrest, hc]
          exact fun d hd => (Option.some.inj hd).symm
        simp [hrest, splitLines, hc]
      · have hsplit := ih ((not_congr (endsLine_append_iff hrest [c])).mp hend)
        rw [List.cons_append, splitLines, splitLines, hsplit]

/-! ## What a line holds -/

/-- A line is made of characters of its text, and of none that ends a line. -/
theorem mem_and_ne_of_mem_splitLines {text line : Text} (hline : line ∈ text.splitLines)
    {c : Char} (hc : c ∈ line) : c ∈ text ∧ c ≠ '\n' := by
  induction text generalizing line with
  | nil => cases hline
  | cons d rest ih =>
      have hback {other : Text} (hother : other ∈ splitLines rest) (hmem : c ∈ other) :
          c ∈ d :: rest ∧ c ≠ '\n' :=
        ⟨List.mem_cons_of_mem d (ih hother hmem).1, (ih hother hmem).2⟩
      by_cases hd : d = '\n'
      · rw [hd, splitLines_lineFeed] at hline
        rcases List.mem_cons.mp hline with rfl | hline
        · cases hc
        · exact hback hline hc
      rw [splitLines, if_neg hd] at hline
      cases hsplit : splitLines rest with
      | nil =>
          rw [hsplit] at hline
          rw [List.mem_singleton.mp hline] at hc
          rw [List.mem_singleton.mp hc]
          exact ⟨List.mem_cons_self, hd⟩
      | cons first others =>
          rw [hsplit] at hline hback
          rcases List.mem_cons.mp hline with rfl | hline
          · rcases List.mem_cons.mp hc with rfl | hc
            · exact ⟨List.mem_cons_self, hd⟩
            · exact hback List.mem_cons_self hc
          · exact hback (List.mem_cons_of_mem first hline) hc

theorem dropReturn_isPrefix (line : Text) : line.dropReturn <+: line := by
  rw [dropReturn]
  split
  · exact List.dropLast_prefix line
  · exact List.prefix_rfl

/-- A line of a document is made of characters of the document, and of no line feed. -/
theorem mem_and_ne_of_mem_lines {document line : Text} (hline : line ∈ document.lines)
    {c : Char} (hc : c ∈ line) : c ∈ document ∧ c ≠ '\n' := by
  obtain ⟨piece, hpiece, rfl⟩ := List.mem_map.mp hline
  obtain ⟨hmem, hne⟩ :=
    mem_and_ne_of_mem_splitLines hpiece (piece.dropReturn_isPrefix.subset hc)
  exact ⟨(dropByteOrderMark_isSuffix document).subset hmem, hne⟩

/-- No line of a document has a line feed in it. -/
theorem lineFeed_not_mem_of_mem_lines {document line : Text}
    (hline : line ∈ document.lines) : '\n' ∉ line :=
  fun hmem => (mem_and_ne_of_mem_lines hline hmem).2 rfl

/-! ## Carriage returns -/

theorem dropReturn_eq_self {line : Text} (hreturn : '\r' ∉ line) :
    line.dropReturn = line := by
  rw [dropReturn, if_neg]
  exact fun hlast => hreturn (List.mem_of_getLast? hlast)

theorem dropReturn_append {front : Text} (hfront : '\r' ∉ front) (line : Text) :
    (front ++ line).dropReturn = front ++ line.dropReturn := by
  by_cases hline : line = []
  · rw [hline, List.append_nil, dropReturn_eq_self hfront]
    exact (List.append_nil front).symm
  · rw [dropReturn, dropReturn, List.getLast?_append_of_ne_nil front hline,
      List.dropLast_append_of_ne_nil hline]
    split <;> rfl

theorem dropReturn_concat (line : Text) : dropReturn (line ++ ['\r']) = line := by
  rw [dropReturn, List.getLast?_concat, if_pos rfl, List.dropLast_concat]

theorem map_dropReturn_splitLines {lines : List Text}
    (hlines : ∀ line ∈ lines, '\n' ∉ line) :
    (splitLines
      (lines.flatMap fun line => line ++ ['\r', '\n'])).map dropReturn = lines := by
  have hended : lines.flatMap (fun line => line ++ ['\r', '\n']) =
      (lines.map (· ++ ['\r'])).flatMap fun line => line ++ ['\n'] := by
    simp only [List.flatMap_map, List.append_assoc, List.singleton_append]
  have hreturns : ∀ line ∈ lines.map (· ++ ['\r']), '\n' ∉ line := by
    simpa using hlines
  rw [hended, splitLines_flatMap hreturns, List.map_map]
  exact List.map_id'' dropReturn_concat lines

end Gherkin.Text
