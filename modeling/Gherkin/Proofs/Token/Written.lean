import Gherkin.Proofs.Cells
import Gherkin.Proofs.Escaping
import Gherkin.Proofs.KeywordLine
import Gherkin.Token
import Gherkin.Document.Render

/-!
# Lines as they are written

Whatever a line is read as can be written as a line again.  The conditions below say
what each kind of line can hold: a comment does not start with a number sign, a tag
has no white space in it, and no text would be read as something else.  A line that
is written from what satisfies them is read as it was meant.
-/

namespace Gherkin

namespace Text

/-- What a comment can say. -/
structure IsComment (text : Text) : Prop where
  head : ∀ c ∈ text.head?, (isBlank c || c == '#') = false
  last : ∀ c ∈ text.getLast?, isWhite c = false
  no_lineFeed : '\n' ∉ text

/-- What a tag can be called. -/
structure IsTag (text : Text) : Prop where
  ne_nil : text ≠ []
  not_isWhite : ∀ c ∈ text, isWhite c = false

/-- What a keyword or a fence can be followed by. -/
structure IsName (text : Text) : Prop where
  trimmed : text.IsTrimmed isWhite
  no_lineFeed : '\n' ∉ text

/-- What a line of a description can be. -/
structure IsSaid (text : Text) : Prop where
  read : LineKind.ofLine .english text = .text text
  no_lineFeed : '\n' ∉ text

theorem isName_trim {text : Text} (hlineFeed : '\n' ∉ text) : text.trim.IsName where
  trimmed := isTrimmed_trimWhile isWhite text
  no_lineFeed hmem := hlineFeed (trim_subset text hmem)

theorem trimTag_isSuffix (word : Text) : word.trimTag <:+ word := by
  unfold trimTag
  split
  · exact List.suffix_cons _ _
  · exact List.suffix_rfl

/-- A space between a keyword and a name belongs to neither. -/
theorem IsName.trim_space_cons {name : Text} (hname : name.IsName) :
    Text.trim (' ' :: name) = name := by
  have hpad : trimWhile isWhite ([' '] ++ (name ++ [])) = name :=
    hname.trimmed.trimWhile_pad (by simp; decide) nofun
  rwa [List.append_nil] at hpad

theorem isComment_trimComment {text : Text} (hlineFeed : '\n' ∉ text) :
    text.trimComment.IsComment where
  head c hc := by
    have hstart :=
      dropEndWhile_isPrefix isWhite (text.dropWhile fun c => isBlank c || c == '#')
    exact head?_dropWhile _ text c (head?_of_isPrefix hstart c hc)
  last := getLast?_dropEndWhile isWhite _
  no_lineFeed hmem := hlineFeed (dropEndWhile_dropWhile_subset _ isWhite text hmem)

end Text

namespace LineKind

open KeywordTable

/-- What a line that was read can hold. -/
def IsWritten : LineKind → Prop
  | keyword opening => (opening.keyword, opening.role) ∈ english.entries ∧
      opening.text.IsName
  | tags names => ∀ name ∈ names, name.IsTag
  | comment said => said.IsComment
  | fence opening => ∀ contentType ∈ opening.contentType?, contentType ≠ [] ∧
      contentType.IsName
  | content line => '\n' ∉ line
  | text said => said.IsSaid
  | tableRow _ | blank => True

variable {line : Text}

/-- A word is made of characters of its line, and of no white space. -/
theorem mem_and_not_isWhite_of_mem_splitOnP {piece : Text}
    (hpiece : piece ∈ line.splitOnP isWhite) :
    ∀ c ∈ piece, c ∈ line ∧ isWhite c = false := by
  induction line generalizing piece with
  | nil =>
      rw [List.mem_singleton.mp hpiece]
      exact nofun
  | cons d line ih =>
      have hback {other : Text} (hother : other ∈ line.splitOnP isWhite) :
          ∀ c ∈ other, c ∈ d :: line ∧ isWhite c = false :=
        fun c hc => ⟨List.mem_cons_of_mem d (ih hother c hc).1, (ih hother c hc).2⟩
      rw [List.splitOnP_cons_eq_if_modifyHead] at hpiece
      split at hpiece
      · rcases List.mem_cons.mp hpiece with rfl | hpiece
        · exact nofun
        · exact hback hpiece
      · next hwhite =>
          obtain ⟨first, others, hsplit⟩ :=
            List.exists_cons_of_ne_nil (List.splitOnP_ne_nil isWhite line)
          rw [hsplit] at hback hpiece
          rcases List.mem_cons.mp hpiece with rfl | hpiece
          · intro c hc
            rcases List.mem_cons.mp hc with rfl | hc
            · exact ⟨List.mem_cons_self, Bool.eq_false_iff.mpr hwhite⟩
            · exact hback List.mem_cons_self c hc
          · exact hback (List.mem_cons_of_mem first hpiece)

/-- A tag is a word without its at sign. -/
theorem mem_and_not_isWhite_of_mem_tagNames {name : Text}
    (hname : name ∈ tagNames line) :
    ∀ c ∈ name, c ∈ line ∧ isWhite c = false := by
  obtain ⟨word, hword, rfl⟩ := List.mem_map.mp (List.mem_filter.mp hname).1
  have hpiece := (List.mem_filter.mp ((List.takeWhile_prefix _).subset hword)).1
  exact fun c hc =>
    mem_and_not_isWhite_of_mem_splitOnP hpiece c (word.trimTag_isSuffix.subset hc)

theorem isTag_of_mem_tagNames {name : Text} (hname : name ∈ tagNames line) :
    name.IsTag := by
  obtain ⟨-, hempty⟩ := List.mem_filter.mp hname
  exact ⟨by simpa using hempty,
    fun c hc => (mem_and_not_isWhite_of_mem_tagNames hname c hc).2⟩

theorem opening?_eq_none_iff :
    FenceLine.opening? line = none ↔
      ∀ fence : Fence, ¬ fence.text <+: line.trimStart := by
  have hof (fence : Fence) :
      FenceLine.openingOf? fence line = none ↔ ¬ fence.text <+: line.trimStart := by
    simp [FenceLine.openingOf?, List.isPrefixOf_iff_prefix]
  rw [FenceLine.opening?, Option.or_eq_none_iff, hof, hof]
  constructor
  · rintro ⟨hquotes, hbackticks⟩ fence
    cases fence <;> assumption
  · exact fun hall => ⟨hall .quotes, hall .backticks⟩

/-- A line is text if nothing else claims it. -/
theorem ofLine_eq_text_iff {keywords : KeywordTable} {said : Text} :
    ofLine keywords line = text said ↔
      line.trim = said ∧ said ≠ [] ∧ keywords.readLine? said = none ∧
        (∀ c ∈ said.head?, c ≠ '@' ∧ c ≠ '#' ∧ c ≠ '|') ∧
        FenceLine.opening? line = none := by
  constructor
  · intro hkind
    unfold ofLine at hkind
    dsimp only at hkind
    split at hkind
    · cases hkind
    · split at hkind
      · cases hkind
      · cases hkind
      · cases hkind
      · split at hkind
        · cases hkind
        · split at hkind
          · cases hkind
          · next hread _ hat hhash hpipe _ hopening hempty =>
              obtain rfl := text.inj hkind
              refine ⟨rfl, fun hnil => hempty (List.isEmpty_iff.mpr hnil), hread, ?_,
                hopening⟩
              intro c hc
              obtain ⟨rest, hrest⟩ := List.head?_eq_some_iff.mp hc
              refine ⟨?_, ?_, ?_⟩
              · rintro rfl
                exact hat rest hrest
              · rintro rfl
                exact hhash rest hrest
              · rintro rfl
                exact hpipe rest hrest
  · rintro ⟨rfl, hne, hread, hhead, hopening⟩
    unfold ofLine
    simp only [hread, hopening]
    split
    · next hrest => exact absurd rfl (hhead '@' (by rw [hrest]; rfl)).1
    · next hrest => exact absurd rfl (hhead '#' (by rw [hrest]; rfl)).2.1
    · next hrest => exact absurd rfl (hhead '|' (by rw [hrest]; rfl)).2.2
    · rw [if_neg (by simpa using hne)]

/-- A text reads as itself: trimming took nothing from it that could make it something
else. -/
theorem ofLine_of_ofLine_eq_text {keywords : KeywordTable} {said : Text}
    (hkind : ofLine keywords line = text said) : ofLine keywords said = text said := by
  obtain ⟨rfl, hne, hread, hhead, hopening⟩ := ofLine_eq_text_iff.mp hkind
  have htrimmed := Text.isTrimmed_trimWhile isWhite line
  refine ofLine_eq_text_iff.mpr ⟨htrimmed.trimWhile_eq, hne, hread, hhead, ?_⟩
  rw [opening?_eq_none_iff] at hopening ⊢
  intro fence hfence
  have hstart : line.trim.trimStart = line.trim := Text.dropWhile_eq_self htrimmed.head
  rw [hstart] at hfence
  exact hopening fence
    (hfence.trans (Text.dropEndWhile_isPrefix isWhite line.trimStart))

/-- A content type is what stands behind the fence, if that is not empty. -/
theorem contentType_of_opening? {opening : FenceLine}
    (hopening : FenceLine.opening? line = some opening) :
    ∀ contentType ∈ opening.contentType?,
      contentType ≠ [] ∧ ∃ rest : Text, rest <:+ line ∧ contentType = rest.trim := by
  obtain ⟨fence, hfence⟩ : ∃ fence, FenceLine.openingOf? fence line = some opening := by
    rw [FenceLine.opening?, Option.or_eq_some_iff] at hopening
    rcases hopening with hopening | ⟨-, hopening⟩
    · exact ⟨_, hopening⟩
    · exact ⟨_, hopening⟩
  unfold FenceLine.openingOf? at hfence
  dsimp only at hfence
  split at hfence
  · rw [← Option.some.inj hfence]
    intro contentType hcontentType
    rw [FenceLine.contentTypeOf?] at hcontentType
    dsimp only at hcontentType
    split at hcontentType
    · cases hcontentType
    · next hempty =>
        obtain rfl := Option.some.inj hcontentType
        refine ⟨fun hnil => hempty (List.isEmpty_iff.mpr hnil), _, ?_, rfl⟩
        exact (List.drop_suffix _ _).trans (List.dropWhile_suffix isWhite)
  · cases hfence

/-- Whatever a line is read as can be written. -/
theorem isWritten_ofLine (hline : '\n' ∉ line) : (ofLine english line).IsWritten := by
  have htrim : '\n' ∉ line.trim := (Text.isName_trim hline).no_lineFeed
  have htext : ∀ said, ofLine english line = text said → said.IsSaid := by
    intro said hkind
    obtain ⟨rfl, -⟩ := ofLine_eq_text_iff.mp hkind
    exact ⟨ofLine_of_ofLine_eq_text hkind, htrim⟩
  revert htext
  unfold ofLine
  dsimp only
  split
  · next opening hread =>
      obtain ⟨hentry, rest, hrest, htext⟩ := eq_of_readLine?_english hread
      rw [IsWritten, htext]
      exact fun _ => ⟨hentry, Text.isName_trim fun hmem => htrim (hrest.subset hmem)⟩
  · split
    · exact fun _ name hname => isTag_of_mem_tagNames hname
    · exact fun _ => Text.isComment_trimComment htrim
    · exact fun _ => trivial
    · split
      · next opening hopening =>
          intro _ contentType hcontentType
          obtain ⟨hne, rest, hrest, rfl⟩ :=
            contentType_of_opening? hopening contentType hcontentType
          exact ⟨hne, Text.isName_trim fun hmem => hline (hrest.subset hmem)⟩
      · split
        · exact fun _ => trivial
        · exact fun htext => htext _ rfl

theorem isWritten_ofContentLine (hline : '\n' ∉ line) (shape : Fence) :
    (ofContentLine shape line).IsWritten := by
  unfold ofContentLine FenceLine.closing?
  split
  · next opening hopening =>
      split at hopening
      · rw [← Option.some.inj hopening]
        exact nofun
      · cases hopening
  · exact hline

/-! ## Written lines are read as they were meant -/

theorem ofLine_of_readLine? {keywords : KeywordTable} {opening : KeywordLine}
    (hread : keywords.readLine? line.trim = some opening) :
    ofLine keywords line = keyword opening := by
  unfold ofLine
  dsimp only
  rw [hread]

theorem ofLine_of_isTrimmed {keywords : KeywordTable} {opening : KeywordLine}
    (hline : line.IsTrimmed isWhite) (hread : keywords.readLine? line = some opening) :
    ofLine keywords line = keyword opening := by
  apply ofLine_of_readLine?
  rwa [Text.trim_eq_trimWhile, hline.trimWhile_eq]

theorem ofLine_of_trim_eq_at {rest : Text} (htrim : line.trim = '@' :: rest) :
    ofLine english line = tags (tagNames ('@' :: rest)) := by
  unfold ofLine
  dsimp only
  rw [htrim, readLine?_english_eq_none (by decide)]
  rfl

theorem ofLine_of_trim_eq_hash {rest : Text} (htrim : line.trim = '#' :: rest) :
    ofLine english line = comment (Text.trimComment ('#' :: rest)) := by
  unfold ofLine
  dsimp only
  rw [htrim, readLine?_english_eq_none (by decide)]
  rfl

theorem ofLine_of_trim_eq_pipe {rest : Text} (htrim : line.trim = '|' :: rest) :
    ofLine english line = tableRow ('|' :: rest) := by
  unfold ofLine
  dsimp only
  rw [htrim, readLine?_english_eq_none (by decide)]
  rfl

theorem ofLine_commentLine {said : Text} (hsaid : said.IsComment) :
    ofLine english (commentLine said) = comment said := by
  have htrim : (commentLine said).trim = '#' :: Text.trimEnd (' ' :: said) :=
    (Text.isTrimmed_singleton (by decide)).trimWhile_append (List.cons_ne_nil _ _) _
  rw [ofLine_of_trim_eq_hash htrim]
  congr 1
  cases said with
  | nil => decide
  | cons c said =>
      have hend : Text.trimEnd (' ' :: c :: said) = ' ' :: c :: said :=
        Text.dropEndWhile_eq_self hsaid.last
      have hstart :
          (c :: said).dropWhile (fun c => isBlank c || c == '#') = c :: said :=
        Text.dropWhile_eq_self hsaid.head
      rw [hend]
      unfold Text.trimComment
      rw [List.dropWhile_cons_of_pos (by decide),
        List.dropWhile_cons_of_pos (by decide), hstart]
      exact Text.dropEndWhile_eq_self hsaid.last

theorem ofLine_encode {cells : List Text} (hcells : cells ≠ []) :
    ofLine english (Cells.encode cells) = tableRow (Cells.encode cells) := by
  have htrim := (Cells.isTrimmed_encode (p := isWhite) (by decide) hcells).trimWhile_eq
  exact ofLine_of_trim_eq_pipe htrim

/-- The line of an opening fence, without indentation. -/
theorem ofLine_fence (shape : Fence) {contentType? : Option Text}
    (hcontentType : ∀ contentType ∈ contentType?, contentType ≠ [] ∧
      contentType.IsName) :
    ofLine english (shape.text ++ contentType?.getD []) =
      fence ⟨shape, 0, contentType?⟩ := by
  have htrimmed : shape.text.IsTrimmed isWhite := by
    constructor <;> simpa [Fence.text] using shape.isWhite_mark
  have htrim (rest : Text) : (shape.text ++ rest).trim = shape.text ++ rest.trimEnd :=
    htrimmed.trimWhile_append shape.text_ne_nil rest
  have hopening (rest : Text) : FenceLine.opening? (shape.text ++ rest) =
      some ⟨shape, 0, FenceLine.contentTypeOf? rest⟩ := by
    cases shape <;> rfl
  have htype : FenceLine.contentTypeOf? (contentType?.getD []) = contentType? := by
    cases contentType? with
    | none => rfl
    | some contentType =>
        obtain ⟨hne, hname⟩ := hcontentType contentType rfl
        have hself : contentType.trim = contentType := hname.trimmed.trimWhile_eq
        simp [FenceLine.contentTypeOf?, hself, hne]
  unfold ofLine
  dsimp only
  rw [htrim, hopening, htype]
  cases shape <;> rfl

theorem ofContentLine_text (shape : Fence) :
    ofContentLine shape shape.text = fence ⟨shape, 0, none⟩ := by
  cases shape <;> decide

theorem ofContentLine_escape (shape : Fence) (line : Text) :
    ofContentLine shape (shape.escape line) = content (shape.escape line) := by
  rw [ofContentLine, shape.closing?_escape]

theorem ofLine_structuralLine {written name : Text} {role : Role}
    (hentry : (written, role) ∈ english.entries) (hrole : role.isStructural = true)
    (hname : name.IsName) :
    ofLine english (structuralLine written name) = keyword ⟨role, written, name⟩ := by
  have hwritten := isLiteral_of_mem_english hentry
  have hcolon : (written ++ [':']).IsTrimmed isWhite :=
    hwritten.trimmed.append hwritten.ne_nil (by simp; decide)
  have htrim : (structuralLine written name).trim =
      (written ++ [':']) ++ Text.trimEnd (' ' :: name) := by
    rw [structuralLine, ← List.singleton_append, ← List.append_assoc]
    exact hcolon.trimWhile_append (by simp) _
  have hspace : Text.trim (Text.trimEnd (' ' :: name)) = name :=
    (Text.trimWhile_dropEndWhile isWhite _).trans hname.trim_space_cons
  apply ofLine_of_readLine?
  rw [htrim, List.append_assoc, List.singleton_append,
    readLine?_english_structural hentry hrole, hspace]

/-- The line of a step, which ends in its keyword if the step has no name. -/
theorem ofLine_stepLine {written name : Text} {role : Role}
    (hentry : (written, role) ∈ english.entries) (hrole : role.isStructural = false)
    (hname : name.IsName) :
    ofLine english (if name.isEmpty then written else written ++ ' ' :: name) =
      keyword ⟨role, written, name⟩ := by
  have hwritten := isLiteral_of_mem_english hentry
  cases name with
  | nil =>
      have hread := readLine?_english_step hentry hrole [] nofun
      rw [List.append_nil] at hread
      exact ofLine_of_isTrimmed hwritten.trimmed hread
  | cons c name =>
      have hread := readLine?_english_step hentry hrole (' ' :: c :: name) (by simp)
      rw [hname.trim_space_cons] at hread
      exact ofLine_of_isTrimmed
        (hwritten.trimmed.append hwritten.ne_nil hname.trimmed.last) hread

theorem tagLine_cons_cons (name next : Text) (names : List Text) :
    tagLine (name :: next :: names) =
      ('@' :: name) ++ ' ' :: tagLine (next :: names) := by
  rw [tagLine, List.map_cons, List.map_cons, List.intercalate_cons_cons,
    List.append_assoc]
  rfl

theorem tagLine_singleton (name : Text) : tagLine [name] = '@' :: name := by
  rw [tagLine, List.map_singleton, List.intercalate_singleton]

theorem exists_tagLine_eq {names : List Text} (hne : names ≠ []) :
    ∃ rest, tagLine names = '@' :: rest := by
  rcases names with _ | ⟨name, _ | ⟨next, names⟩⟩
  · exact absurd rfl hne
  · exact ⟨_, tagLine_singleton name⟩
  · exact ⟨_, tagLine_cons_cons name next names⟩

theorem not_isWhite_at_cons {name : Text} (hname : name.IsTag) :
    ∀ c ∈ '@' :: name, isWhite c = false := by
  intro c hc
  rcases List.mem_cons.mp hc with rfl | hc
  · decide
  · exact hname.not_isWhite c hc

/-- The words of a tag line are its tags with their at signs. -/
theorem words_tagLine {names : List Text} (hne : names ≠ [])
    (hnames : ∀ name ∈ names, name.IsTag) :
    words (tagLine names) = names.map fun name => '@' :: name := by
  induction names with
  | nil => exact absurd rfl hne
  | cons name names ih =>
      have hname := not_isWhite_at_cons (hnames name List.mem_cons_self)
      cases names with
      | nil =>
          rw [tagLine_singleton, words, List.splitOnP_eq_singleton hname]
          rfl
      | cons next names =>
          have hrest := ih (List.cons_ne_nil _ _) fun other hother =>
            hnames other (List.mem_cons_of_mem name hother)
          rw [tagLine_cons_cons, words,
            List.splitOnP_append_cons_of_forall_mem hname ' ' (by decide),
              List.map_cons,
            ← hrest]
          rfl

theorem isTrimmed_tagLine {names : List Text} (hne : names ≠ [])
    (hnames : ∀ name ∈ names, name.IsTag) : (tagLine names).IsTrimmed isWhite := by
  induction names with
  | nil => exact absurd rfl hne
  | cons name names ih =>
      have hname := not_isWhite_at_cons (hnames name List.mem_cons_self)
      have htag : Text.IsTrimmed isWhite ('@' :: name) :=
        ⟨fun c hc => hname c (List.mem_of_mem_head? hc),
          fun c hc => hname c (List.mem_of_getLast? hc)⟩
      cases names with
      | nil =>
          rw [tagLine_singleton]
          exact htag
      | cons next names =>
          have hrest := ih (List.cons_ne_nil _ _) fun other hother =>
            hnames other (List.mem_cons_of_mem name hother)
          obtain ⟨rest, heq⟩ := exists_tagLine_eq (List.cons_ne_nil next names)
          rw [tagLine_cons_cons, heq]
          apply htag.append (List.cons_ne_nil _ _)
          rw [List.getLast?_cons_cons, ← heq]
          exact hrest.last

theorem lineFeed_not_mem_tagLine {names : List Text}
    (hnames : ∀ name ∈ names, name.IsTag) :
    '\n' ∉ tagLine names := by
  have hlineFeed {name : Text} (hname : name.IsTag) : '\n' ∉ '@' :: name := fun hmem =>
    absurd (not_isWhite_at_cons hname _ hmem) (by decide)
  induction names with
  | nil => exact nofun
  | cons name names ih =>
      have hname := hlineFeed (hnames name List.mem_cons_self)
      cases names with
      | nil => rwa [tagLine_singleton]
      | cons next names =>
          have hrest :=
            ih fun other hother => hnames other (List.mem_cons_of_mem name hother)
          rw [tagLine_cons_cons]
          intro hmem
          rcases List.mem_append.mp hmem with hmem | hmem
          · exact hname hmem
          · rcases List.mem_cons.mp hmem with hspace | hmem
            · exact absurd hspace (by decide)
            · exact hrest hmem

theorem ofLine_tagLine {names : List Text} (hne : names ≠ [])
    (hnames : ∀ name ∈ names, name.IsTag) :
    ofLine english (tagLine names) = tags names := by
  obtain ⟨rest, hrest⟩ := exists_tagLine_eq hne
  have htrim : (tagLine names).trim = '@' :: rest :=
    (isTrimmed_tagLine hne hnames).trimWhile_eq.trans hrest
  have hhash : (names.map fun name => '@' :: name).takeWhile
      (fun word => word.head? != some '#') = names.map fun name => '@' :: name := by
    rw [List.takeWhile_eq_self_iff]
    intro word hword
    obtain ⟨name, -, rfl⟩ := List.mem_map.mp hword
    rfl
  have hnamed : (names.map fun name => '@' :: name).map Text.trimTag = names := by
    rw [List.map_map]
    exact List.map_id' names
  rw [ofLine_of_trim_eq_at htrim, ← hrest, tagNames, words_tagLine hne hnames,
    hhash, hnamed,
    List.filter_eq_self.mpr]
  exact fun name hname => by simpa using (hnames name hname).ne_nil

end LineKind

end Gherkin
