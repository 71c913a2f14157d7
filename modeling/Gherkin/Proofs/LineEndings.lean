import Gherkin.Proofs.Provenance

/-!
# Line endings

A line may end in a line feed or in a carriage return and a line feed, and the last line
of a document may end in neither.  The ending is dropped before anything else looks at
the line, so documents that differ in their endings only have the same lines, and
everything that is read from them is the same.  A carriage return that ends a line is
not part of any text.
-/

namespace Gherkin

namespace Text

/-- The text with a carriage return in front of every line feed. -/
def withReturns (text : Text) : Text :=
  text.replaceAll ['\n'] ['\r', '\n']

theorem withReturns_lineFeed (rest : Text) :
    withReturns ('\n' :: rest) = '\r' :: '\n' :: rest.withReturns :=
  replaceAll_append (List.cons_ne_nil '\n' []) ['\r', '\n'] rest

theorem withReturns_cons {c : Char} (hc : c ≠ '\n') (rest : Text) :
    withReturns (c :: rest) = c :: rest.withReturns := by
  apply replaceAll_cons
  rw [List.isPrefixOf_cons_cons, beq_false_of_ne (Ne.symm hc), Bool.false_and]

/-- A return in front of a line feed is dropped with it. -/
theorem map_dropReturn_splitLines_withReturns {text : Text} (hreturn : '\r' ∉ text) :
    (splitLines text.withReturns).map dropReturn = splitLines text := by
  induction text with
  | nil => rfl
  | cons c rest ih =>
      have hlines := ih (List.not_mem_of_not_mem_cons hreturn)
      by_cases hc : c = '\n'
      · have hline : '\n' ∉ ['\r'] := by decide
        rw [hc, withReturns_lineFeed, splitLines_lineFeed]
        calc (splitLines (['\r'] ++ '\n' :: withReturns rest)).map dropReturn
            = dropReturn ['\r'] :: (splitLines (withReturns rest)).map dropReturn := by
              rw [splitLines_line hline, List.map_cons]
          _ = [] :: splitLines rest := by
              rw [hlines]
              rfl
      · -- A return is dropped at the end of a line only, whatever is in front of it.
        have hfront : '\r' ∉ [c] :=
          List.not_mem_cons_of_ne_of_not_mem
            (List.ne_of_not_mem_cons hreturn) List.not_mem_nil
        rw [withReturns_cons hc, splitLines, splitLines, if_neg hc, if_neg hc, ← hlines]
        cases splitLines (withReturns rest) with
        | nil => simp only [List.map_nil, List.map_singleton, dropReturn_eq_self hfront]
        | cons line lines =>
            have hline : dropReturn (c :: line) = c :: line.dropReturn :=
              dropReturn_append hfront line
            simp only [List.map_cons, hline]

/-- Without returns there is nothing to drop. -/
theorem map_dropReturn_splitLines_of_not_mem {text : Text} (hreturn : '\r' ∉ text) :
    (splitLines text).map dropReturn = splitLines text := by
  calc (splitLines text).map dropReturn
      = (splitLines text).map id := by
        apply List.map_congr_left
        intro line hline
        apply dropReturn_eq_self
        exact fun hmem => hreturn (mem_and_ne_of_mem_splitLines hline hmem).1
    _ = splitLines text := List.map_id _

theorem dropByteOrderMark_withReturns (text : Text) :
    text.withReturns.dropByteOrderMark = text.dropByteOrderMark.withReturns := by
  cases text with
  | nil => rfl
  | cons c rest =>
      by_cases hc : c = '\n'
      · rw [hc, withReturns_lineFeed]
        exact (withReturns_lineFeed rest).symm
      rw [withReturns_cons hc]
      by_cases hmark : c = '\uFEFF'
      · rw [hmark]
        rfl
      · have hhead (text : Text) : (c :: text).head? ≠ some '\uFEFF' :=
          fun hfirst => hmark (Option.some.inj hfirst)
        rw [dropByteOrderMark_of_head? (hhead _), dropByteOrderMark_of_head? (hhead _),
          withReturns_cons hc]

/-- A document has the same lines with either ending. -/
theorem lines_withReturns {document : Text} (hreturn : '\r' ∉ document) :
    document.withReturns.lines = document.lines := by
  have hrest : '\r' ∉ document.dropByteOrderMark :=
    fun hmem => hreturn ((dropByteOrderMark_isSuffix document).subset hmem)
  rw [lines, dropByteOrderMark_withReturns, map_dropReturn_splitLines_withReturns hrest,
    lines, map_dropReturn_splitLines_of_not_mem hrest]

/-- A document has the same lines if its last one is ended. -/
theorem lines_concat_lineFeed {document : Text} (hend : ¬ document.EndsLine)
    (hmark : document ≠ ['\uFEFF']) : lines (document ++ ['\n']) = document.lines := by
  have hne : document ≠ [] := by
    rintro rfl
    exact hend nofun
  have hrest : document.dropByteOrderMark ≠ [] := by
    unfold dropByteOrderMark
    split
    · rintro rfl
      exact hmark rfl
    · exact hne
  have hback : ¬ document.dropByteOrderMark.EndsLine := by
    obtain ⟨front, hfront⟩ := dropByteOrderMark_isSuffix document
    rwa [← endsLine_append_iff hrest front, hfront]
  rw [lines, dropByteOrderMark_append hne, splitLines_concat_lineFeed hback, lines]

end Text

/-- Whatever is scanned and read depends on the document through its lines. -/
theorem read_alike_of_lines_eq {document other : Text}
    (hlines : other.lines = document.lines)
    (config : Config) (uri : Text) :
    scan config.keywords other = scan config.keywords document ∧
      parse config uri other = parse config uri document := by
  have hscan : scan config.keywords other = scan config.keywords document := by
    rw [scan_eq_scanLines, scan_eq_scanLines, hlines]
  refine ⟨hscan, ?_⟩
  rw [Assembly.parse_eq_read, Assembly.parse_eq_read, hscan]

/-- A document is scanned and read alike with either ending, and also if its last line
is not ended.  No return that ends a line gets into a text, and the lines of a doc
string are joined by line feeds alone. -/
theorem read_ignores_line_endings (config : Config) (uri document : Text) :
    ('\r' ∉ document →
      scan config.keywords document.withReturns = scan config.keywords document ∧
        parse config uri document.withReturns = parse config uri document ∧
        (∀ token ∈ (scan config.keywords document.withReturns).tokens,
          ∀ text ∈ token.kind.texts, '\r' ∉ text) ∧
        ∀ feature, parse config uri document.withReturns = .ok feature →
          (∀ text ∈ feature.texts, '\r' ∉ text) ∧
            ∀ heading ∈ feature.headings, ∀ doc ∈ heading.docs,
              ∃ (opening : FenceLine) (contents : List Text),
                doc.content = Text.joinLines (contents.map opening.content) ∧
                  ∀ content ∈ contents, content ∈ document.lines) ∧
      (¬ document.EndsLine → document ≠ ['\uFEFF'] →
        scan config.keywords (document ++ ['\n']) = scan config.keywords document ∧
          parse config uri (document ++ ['\n']) = parse config uri document) := by
  constructor
  · intro hreturn
    obtain ⟨hscan, hparse⟩ :=
      read_alike_of_lines_eq (Text.lines_withReturns hreturn) config uri
    rw [hscan, hparse]
    refine ⟨rfl, rfl, ?_, ?_⟩
    · intro token htoken text htext hmem
      exact hreturn (texts_subset_of_mem_scan htoken text htext hmem)
    · intro feature hfeature
      constructor
      · intro text htext hmem
        rcases List.mem_cons.mp (texts_subset_of_parse hfeature text htext hmem) with
          hc | hc
        · exact absurd hc (by decide)
        · exact hreturn hc
      · exact fun heading hheading doc => exists_joined_of_mem_docs hfeature hheading
  · intro hend hmark
    exact read_alike_of_lines_eq (Text.lines_concat_lineFeed hend hmark) config uri

theorem read_ignores_line_endings_sampleDocument :
    '\r' ∉ sampleDocument ∧ '\r' ∈ sampleDocument.withReturns ∧
      parse {} "u".toList sampleDocument.withReturns = .ok sampleFeature ∧
      (∀ text ∈ sampleFeature.texts, '\r' ∉ text) ∧
      ¬ sampleDocument.EndsLine ∧ sampleDocument ≠ ['\uFEFF'] ∧
      parse {} "u".toList (sampleDocument ++ ['\n']) = .ok sampleFeature := by
  have hreturn : '\r' ∉ sampleDocument := by decide +kernel
  have hend : ¬ sampleDocument.EndsLine := by decide +kernel
  have hmark : sampleDocument ≠ ['\uFEFF'] :=
    ne_of_apply_ne List.length (by decide +kernel)
  obtain ⟨hreturns, hended⟩ := read_ignores_line_endings {} "u".toList sampleDocument
  obtain ⟨-, hparse, -, htexts⟩ := hreturns hreturn
  have hread : parse {} "u".toList sampleDocument.withReturns = .ok sampleFeature :=
    hparse.trans parse_sampleDocument
  exact ⟨hreturn, by decide +kernel, hread, (htexts sampleFeature hread).1, hend, hmark,
    (hended hend hmark).2.trans parse_sampleDocument⟩

end Gherkin
