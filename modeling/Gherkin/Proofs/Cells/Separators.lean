import Gherkin.Assembly.Feed
import Gherkin.Proofs.Cells
import Mathlib.Algebra.Group.Nat.Even

/-!
# Where a row is split

Reading a row splits it, resolves its escapes and trims its cells in one pass.  The rule
behind this has three parts.  A pipe separates two cells if an even number of
backslashes stands directly in front of it.  What stands between two separators is
trimmed.  Then its escapes are resolved, from the left.  The number of backslashes tells
what the pass knows without counting them: whether the last of them has been taken in as
the second half of an escape.
-/

namespace Gherkin.Cells

/-! ## The rule -/

/-- The number of backslashes directly in front of a place of the row. -/
def backslashes (row : Text) (place : Nat) : Nat :=
  ((row.take place).rtakeWhile (· == '\\')).length

/-- A pipe that no backslash escapes. -/
def IsSeparator (row : Text) (place : Nat) : Prop :=
  row[place]? = some '|' ∧ Even (backslashes row place)

instance (row : Text) : DecidablePred (IsSeparator row) :=
  fun place => inferInstanceAs (Decidable (row[place]? = some '|' ∧ _))

/-- The places of the separators, in order. -/
def separators (row : Text) : List Nat :=
  (List.range row.length).filter fun place => IsSeparator row place

/-- The text between two places. -/
def between (row : Text) (first last : Nat) : Text :=
  (row.take last).drop (first + 1)

/-- The texts between each separator and the next one. -/
def spans (row : Text) : List Text :=
  ((separators row).zip (separators row).tail).map fun ends =>
    between row ends.1 ends.2

/-- What stands behind the last separator. -/
def leftover (row : Text) : Text :=
  match (separators row).getLast? with
  | some last => row.drop (last + 1)
  | none => row

/-- A text with its escapes resolved from the left.  A backslash in front of any other
character stays. -/
def unescape : Text → Text
  | [] => []
  | '\\' :: '|' :: rest => '|' :: unescape rest
  | '\\' :: '\\' :: rest => '\\' :: unescape rest
  | '\\' :: 'n' :: rest => '\n' :: unescape rest
  | c :: rest => c :: unescape rest

/-! ## Resolving escapes -/

/-- The character turns a backslash in front of it into an escape. -/
def IsEscapable (c : Char) : Prop :=
  c = '|' ∨ c = '\\' ∨ c = 'n'

/-- A backslash that begins no escape has nothing behind it that it could escape. -/
theorem not_isEscapable_of_head? {c : Char} {rest : Text}
    (hpipe : ∀ behind, c = '\\' → rest = '|' :: behind → False)
    (hbackslash : ∀ behind, c = '\\' → rest = '\\' :: behind → False)
    (hletter : ∀ behind, c = '\\' → rest = 'n' :: behind → False) :
    c = '\\' → ∀ d ∈ rest.head?, ¬ IsEscapable d := by
  rintro hc d hd hescapable
  obtain ⟨behind, rfl⟩ := List.head?_eq_some_iff.mp hd
  rcases hescapable with rfl | rfl | rfl
  · exact hpipe behind hc rfl
  · exact hbackslash behind hc rfl
  · exact hletter behind hc rfl

theorem unescape_cons {c : Char} {rest : Text}
    (hc : c = '\\' → ∀ d ∈ rest.head?, ¬ IsEscapable d) :
    unescape (c :: rest) = c :: unescape rest := by
  rw [unescape]
  all_goals
    rintro behind rfl rfl
    exact hc rfl _ rfl (by simp [IsEscapable])

theorem unescape_eq_nil_iff {text : Text} : unescape text = [] ↔ text = [] := by
  cases text using unescape.fun_cases <;> simp [unescape, *]

/-- Blanks in front are no part of an escape. -/
theorem unescape_blanks_append {front : Text} (hfront : ∀ c ∈ front, isBlank c = true)
    (rest : Text) : unescape (front ++ rest) = front ++ unescape rest := by
  induction front with
  | nil => rfl
  | cons c front ih =>
      obtain ⟨hc, hfront⟩ := List.forall_mem_cons.mp hfront
      have hbackslash : c ≠ '\\' := by
        rintro rfl
        exact absurd hc (by decide)
      rw [List.cons_append, unescape_cons fun heq => absurd heq hbackslash, ih hfront,
        List.cons_append]

theorem not_isEscapable_of_isBlank {c : Char} (hc : isBlank c = true) :
    ¬ IsEscapable c := by
  rintro (rfl | rfl | rfl) <;> exact absurd hc (by decide)

/-- Nor are blanks behind, also if there is a backslash in front of them. -/
theorem unescape_append_blanks {back : Text} (hback : ∀ c ∈ back, isBlank c = true)
    (text : Text) : unescape (text ++ back) = unescape text ++ back := by
  induction text using unescape.induct with
  | case1 =>
      have hblanks := unescape_blanks_append hback []
      rwa [List.append_nil, unescape, List.append_nil] at hblanks
  | case2 rest ih | case3 rest ih | case4 rest ih =>
      simp only [List.cons_append, unescape, ih]
  | case5 c rest hpipe hbackslash hletter ih =>
      have hrest := not_isEscapable_of_head? hpipe hbackslash hletter
      have hwhole : c = '\\' → ∀ d ∈ (rest ++ back).head?, ¬ IsEscapable d := by
        intro hc d hd
        rw [List.head?_append, Option.mem_def, Option.or_eq_some_iff] at hd
        rcases hd with hd | ⟨-, hd⟩
        · exact hrest hc d hd
        · exact not_isEscapable_of_isBlank (hback d (List.mem_of_mem_head? hd))
      rw [List.cons_append, unescape_cons hwhole, ih, unescape_cons hrest,
        List.cons_append]

theorem getLast?_cons_not_isBlank {c : Char} {text : Text}
    (hc : text = [] → isBlank c = false)
    (htext : ∀ d ∈ text.getLast?, isBlank d = false) :
    ∀ d ∈ (c :: text).getLast?, isBlank d = false := by
  rcases List.eq_nil_or_concat' text with rfl | ⟨front, last, rfl⟩
  · simpa using hc
  · simpa [List.getLast?_cons] using htext

/-- No escape stands for a blank, so the edges of a trimmed text stay what they are. -/
theorem isTrimmed_unescape {text : Text} (htext : text.IsTrimmed isBlank) :
    (unescape text).IsTrimmed isBlank where
  head := by
    have hhead := htext.head
    cases text using unescape.fun_cases with
    | case1 | case2 | case3 | case4 => simp [unescape, isBlank]
    | case5 c rest =>
        rw [unescape]
        · exact hhead
        all_goals assumption
  last := by
    have hlast := htext.last
    clear htext
    induction text using unescape.induct with
    | case1 => simp [unescape]
    | case2 rest ih | case3 rest ih | case4 rest ih =>
        have hrest := ih fun c hc =>
          hlast c (Text.getLast?_of_isSuffix ⟨_ :: [_], rfl⟩ c hc)
        exact getLast?_cons_not_isBlank (fun _ => by decide) hrest
    | case5 c rest _ _ _ ih =>
        have hrest := ih fun d hd =>
          hlast d (Text.getLast?_of_isSuffix (List.suffix_cons c rest) d hd)
        rw [unescape]
        · refine getLast?_cons_not_isBlank (fun hnil => ?_) hrest
          rw [unescape_eq_nil_iff.mp hnil] at hlast
          exact hlast c rfl
        all_goals assumption

/-- It makes no difference whether escapes are resolved before blanks are trimmed or
behind it. -/
theorem trimBlanks_unescape (text : Text) :
    (unescape text).trimBlanks = unescape text.trimBlanks := by
  obtain ⟨front, back, htext, hfront, hback⟩ :=
    Text.exists_eq_trimWhile_pad isBlank text
  have htrimmed := isTrimmed_unescape (Text.isTrimmed_trimWhile isBlank text)
  conv_lhs =>
    rw [htext, unescape_blanks_append hfront, unescape_append_blanks hback]
  exact htrimmed.trimWhile_pad hfront hback

/-! ## Places -/

section Places

variable {row rest : Text} {start place : Nat} {c : Char} {places : List Nat}

theorem getElem?_of_drop_eq (hback : row.drop start = c :: rest) :
    row[start]? = some c := by
  rw [← List.head?_drop, hback, List.head?_cons]

theorem drop_succ_of_drop_eq (hback : row.drop start = c :: rest) :
    row.drop (start + 1) = rest := by
  rw [← List.tail_drop, hback, List.tail_cons]

/-- A backslash adds to the run of backslashes, any other character ends it. -/
theorem backslashes_succ (hc : row[place]? = some c) :
    backslashes row (place + 1) =
      if c = '\\' then backslashes row place + 1 else 0 := by
  rw [backslashes, List.take_add_one, hc, Option.toList_some, List.rtakeWhile_concat]
  by_cases hbackslash : c = '\\' <;> simp [hbackslash, backslashes]

/-- The separators from a place on. -/
def separatorsFrom (row : Text) (start : Nat) : List Nat :=
  (List.range' start (row.length - start)).filter fun place => IsSeparator row place

theorem separators_eq (row : Text) : separators row = separatorsFrom row 0 := by
  rw [separators, separatorsFrom, List.range_eq_range', Nat.sub_zero]

theorem separatorsFrom_of_drop_eq_nil (hback : row.drop start = []) :
    separatorsFrom row start = [] := by
  have hlength : row.length - start = 0 :=
    Nat.sub_eq_zero_of_le (List.drop_eq_nil_iff.mp hback)
  rw [separatorsFrom, hlength, List.range'_zero, List.filter_nil]

theorem separatorsFrom_of_drop_eq_cons (hback : row.drop start = c :: rest) :
    separatorsFrom row start =
      if IsSeparator row start then start :: separatorsFrom row (start + 1)
      else separatorsFrom row (start + 1) := by
  have hlength := congrArg List.length hback
  rw [List.length_drop, List.length_cons] at hlength
  have hrest : row.length - (start + 1) = rest.length := by omega
  rw [separatorsFrom, hlength, List.range'_succ, List.filter_cons, separatorsFrom,
    hrest]
  simp only [decide_eq_true_eq]

theorem lt_of_mem_separatorsFrom (hplace : place ∈ separatorsFrom row (start + 1)) :
    start < place :=
  (List.mem_range'_1.mp (List.mem_filter.mp hplace).1).1

/-- The pieces of the row from a place on, cut at the given places. -/
def cut (row : Text) (start : Nat) : List Nat → List Text
  | [] => [row.drop start]
  | place :: places => (row.take place).drop start :: cut row (place + 1) places

/-- A place where nothing is cut belongs to the first piece. -/
theorem cut_of_lt (hback : row.drop start = c :: rest)
    (hplaces : ∀ place ∈ places, start < place) :
    cut row start places = push c (cut row (start + 1) places) := by
  have hrest := drop_succ_of_drop_eq hback
  cases places with
  | nil => rw [cut, cut, hback, hrest, push]
  | cons place places =>
      obtain ⟨gap, rfl⟩ := Nat.exists_eq_add_of_lt (hplaces place List.mem_cons_self)
      rw [cut, cut, push, List.drop_take, List.drop_take, hback, hrest,
        show start + gap + 1 - start = gap + 1 by omega,
        show start + gap + 1 - (start + 1) = gap by omega, List.take_succ_cons]

theorem head?_cut_isPrefix (row : Text) (start : Nat) (places : List Nat) :
    ∀ piece ∈ (cut row start places).head?, piece <+: row.drop start := by
  intro piece hpiece
  cases places with
  | nil => exact Option.some.inj hpiece ▸ List.prefix_rfl
  | cons place places =>
      obtain rfl := Option.some.inj hpiece
      rw [List.drop_take]
      exact List.take_prefix _ _

/-! ## Splitting -/

/-- A character that is no separator belongs to the piece it stands in. -/
theorem cut_separatorsFrom_of_not (hback : row.drop start = c :: rest)
    (hseparator : ¬ IsSeparator row start) :
    cut row start (separatorsFrom row start) =
      push c (cut row (start + 1) (separatorsFrom row (start + 1))) := by
  rw [separatorsFrom_of_drop_eq_cons hback, if_neg hseparator]
  exact cut_of_lt hback fun place => lt_of_mem_separatorsFrom

theorem cut_separatorsFrom_of_isSeparator (hback : row.drop start = c :: rest)
    (hseparator : IsSeparator row start) :
    cut row start (separatorsFrom row start) =
      [] :: cut row (start + 1) (separatorsFrom row (start + 1)) := by
  rw [separatorsFrom_of_drop_eq_cons hback, if_pos hseparator, cut,
    List.drop_eq_nil_of_le (List.length_take_le _ _)]

/-- An escape belongs to the piece it stands in, whatever it is an escape for. -/
theorem cut_separatorsFrom_of_escape {d : Char}
    (hback : row.drop start = '\\' :: d :: rest)
    (heven : Even (backslashes row start)) :
    cut row start (separatorsFrom row start) =
      push '\\' (push d (cut row (start + 2) (separatorsFrom row (start + 2)))) := by
  have hplace := getElem?_of_drop_eq hback
  have hnext := drop_succ_of_drop_eq hback
  have hfirst : ¬ IsSeparator row start := by
    rintro ⟨hpipe, -⟩
    rw [hplace] at hpipe
    cases hpipe
  have hsecond : ¬ IsSeparator row (start + 1) := by
    rintro ⟨-, hodd⟩
    rw [backslashes_succ hplace, if_pos rfl, Nat.even_add_one] at hodd
    exact hodd heven
  rw [cut_separatorsFrom_of_not hback hfirst, cut_separatorsFrom_of_not hnext hsecond]

/-- Behind an escape the number of backslashes is even again. -/
theorem even_backslashes_of_escape {d : Char}
    (hback : row.drop start = '\\' :: d :: rest)
    (heven : Even (backslashes row start)) :
    Even (backslashes row (start + 2)) := by
  have hfirst := backslashes_succ (getElem?_of_drop_eq hback)
  have hsecond := backslashes_succ (getElem?_of_drop_eq (drop_succ_of_drop_eq hback))
  rw [if_pos rfl] at hfirst
  rw [hsecond, hfirst]
  split
  · exact heven.add (by decide : Even 2)
  · exact Even.zero

theorem map_unescape_push {pieces : List Text}
    (hc : c = '\\' → ∀ piece ∈ pieces.head?, ∀ d ∈ piece.head?, ¬ IsEscapable d) :
    (push c pieces).map unescape = push c (pieces.map unescape) := by
  cases pieces with
  | nil => simp [push, unescape]
  | cons piece pieces =>
      rw [push, List.map_cons, unescape_cons fun heq => hc heq piece rfl, List.map_cons,
        push]

theorem map_unescape_push_push {d e : Char} (pieces : List Text)
    (hescape : ∀ text, unescape ('\\' :: d :: text) = e :: unescape text) :
    (push '\\' (push d pieces)).map unescape = push e (pieces.map unescape) := by
  cases pieces with
  | nil => simp [push, hescape, unescape]
  | cons piece pieces => simp [push, hescape]

/-- Where no escape has begun, the pieces of the rest of the row are what stands between
its separators, with the escapes resolved. -/
theorem split_of_drop_eq {back : Text} (hback : row.drop start = back)
    (heven : ∀ d ∈ back.head?, d = '|' ∨ d = '\\' → Even (backslashes row start)) :
    split back = (cut row start (separatorsFrom row start)).map unescape := by
  induction back using split.induct generalizing start with
  | case1 =>
      rw [separatorsFrom_of_drop_eq_nil hback, cut, hback]
      rfl
  | case2 rest ih =>
      have hplace := getElem?_of_drop_eq hback
      have hseparator : IsSeparator row start := ⟨hplace, heven '|' rfl (.inl rfl)⟩
      have hnext : Even (backslashes row (start + 1)) := by
        rw [backslashes_succ hplace]
        exact Even.zero
      rw [split, ih (drop_succ_of_drop_eq hback) fun _ _ _ => hnext,
        cut_separatorsFrom_of_isSeparator hback hseparator, List.map_cons, unescape]
  | case3 rest ih | case4 rest ih | case5 rest ih =>
      have hstart := heven '\\' rfl (.inr rfl)
      have hrest := drop_succ_of_drop_eq (drop_succ_of_drop_eq hback)
      have hnext := even_backslashes_of_escape hback hstart
      rw [split, ih hrest fun _ _ _ => hnext, cut_separatorsFrom_of_escape hback hstart]
      exact (map_unescape_push_push _ fun _ => by rw [unescape]).symm
  | case6 c rest hpipe hfirst hsecond hthird ih =>
      have hplace := getElem?_of_drop_eq hback
      have hseparator : ¬ IsSeparator row start := by
        rintro ⟨hc, -⟩
        rw [hplace] at hc
        exact hpipe (Option.some.inj hc)
      have hordinary := not_isEscapable_of_head? hfirst hsecond hthird
      have hrest := drop_succ_of_drop_eq hback
      have hnext : ∀ d ∈ rest.head?, d = '|' ∨ d = '\\' →
          Even (backslashes row (start + 1)) := by
        intro d hd hspecial
        rw [backslashes_succ hplace]
        split
        · next hc =>
            exact absurd (hspecial.imp_right .inl) (hordinary hc d hd)
        · exact Even.zero
      rw [split, ih hrest hnext, cut_separatorsFrom_of_not hback hseparator]
      · refine (map_unescape_push fun hc piece hpiece d hd => ?_).symm
        have hstart := head?_cut_isPrefix row (start + 1) _ piece hpiece
        rw [hrest] at hstart
        exact hordinary hc d (Text.head?_of_isPrefix hstart d hd)
      all_goals assumption

/-! ## Rows -/

/-- The pieces behind a first place end at each further place and at the end of the
row. -/
theorem cut_eq (row : Text) (first : Nat) (places : List Nat) :
    cut row (first + 1) places =
      ((first :: places).zip places).map (fun ends => between row ends.1 ends.2) ++
        [row.drop (places.getLast?.getD first + 1)] := by
  induction places generalizing first with
  | nil => rfl
  | cons place places ih =>
      rw [cut, ih, List.zip_cons_cons, List.map_cons, List.getLast?_cons,
        Option.getD_some, List.cons_append, between]

/-- The pipe that a row begins with is its first separator. -/
theorem separators_pipe_cons (body : Text) :
    separators ('|' :: body) = 0 :: separatorsFrom ('|' :: body) 1 := by
  have hseparator : IsSeparator ('|' :: body) 0 := ⟨rfl, Even.zero⟩
  rw [separators_eq, separatorsFrom_of_drop_eq_cons rfl, if_pos hseparator]

/-- Behind its first pipe a row splits into its spans and what is left over. -/
theorem split_body (body : Text) :
    split body = (spans ('|' :: body) ++ [leftover ('|' :: body)]).map unescape := by
  have heven : Even (backslashes ('|' :: body) 1) := by
    rw [backslashes_succ rfl]
    exact Even.zero
  have hback : ('|' :: body).drop 1 = body := rfl
  rw [split_of_drop_eq hback fun _ _ _ => heven, cut_eq, spans, leftover,
    separators_pipe_cons, List.tail_cons, List.getLast?_cons]

end Places

theorem length_spans (row : Text) :
    (spans row).length = (separators row).length - 1 := by
  rw [spans, List.length_map, List.length_zip, List.length_tail]
  omega

/-- Decoding follows the rule: a row begins with a pipe, has nothing but blanks behind
its last separator, and has a separator besides the first one. -/
theorem decode_eq (raw : Text) :
    decode raw =
      if raw.trimBlanks.head? ≠ some '|' then .error .noOpeningPipe
      else if ¬ (leftover raw.trimBlanks).all isBlank then .error .noClosingPipe
      else if (separators raw.trimBlanks).length < 2 then .error .noCells
      else .ok ((spans raw.trimBlanks).map fun span => unescape span.trimBlanks) := by
  generalize hrow : raw.trimBlanks = row
  by_cases hhead : row.head? = some '|'
  · obtain ⟨body, rfl⟩ := List.head?_eq_some_iff.mp hhead
    have hpieces : (split body).map Text.trimBlanks =
        (spans ('|' :: body)).map (fun span => unescape span.trimBlanks) ++
          [unescape (leftover ('|' :: body)).trimBlanks] := by
      simp only [split_body, List.map_map, Function.comp_def, trimBlanks_unescape,
        List.map_append, List.map_singleton]
    have hleftover : (unescape (leftover ('|' :: body)).trimBlanks).isEmpty = true ↔
        (leftover ('|' :: body)).all isBlank = true := by
      rw [List.isEmpty_iff, unescape_eq_nil_iff, List.all_eq_true]
      exact Text.trimWhile_eq_nil_iff
    have hcells : (spans ('|' :: body)).map
        (fun span => unescape span.trimBlanks) = [] ↔
        (separators ('|' :: body)).length < 2 := by
      rw [List.map_eq_nil_iff, ← List.length_eq_zero_iff, length_spans]
      omega
    rw [decode_of_trimBlanks_eq hrow, hpieces]
    simp only [List.getLast?_concat, Option.any_some, Bool.not_eq_true',
      ← Bool.not_eq_true, hleftover, List.dropLast_concat, List.isEmpty_iff, hcells,
      hhead, ne_eq, not_true_eq_false, if_false]
  · rw [if_pos hhead, decode, hrow]
    split
    · exact absurd rfl hhead
    · rfl

-- The pipe in the middle is escaped, the last one has a whole escape in front of it.
example : separators "|a\\|b\\\\|".toList = [0, 7] := by decide

/-- Reads a row at the given line of a document. -/
def read (line : Nat) (raw : Text) : Except Diagnostic (List Text) :=
  (decode raw).mapError fun fault => ⟨line, .malformedRow fault.reason⟩

/-- A row that is not read is malformed at its line. -/
theorem read_eq (line : Nat) (raw : Text) :
    let malformed (fault : RowFault) : Except Diagnostic (List Text) :=
      .error ⟨line, .malformedRow fault.reason⟩
    read line raw =
      if raw.trimBlanks.head? ≠ some '|' then malformed .noOpeningPipe
      else if ¬ (leftover raw.trimBlanks).all isBlank then malformed .noClosingPipe
      else if (separators raw.trimBlanks).length < 2 then malformed .noCells
      else .ok ((spans raw.trimBlanks).map fun span => unescape span.trimBlanks) := by
  rw [read, decode_eq]
  split_ifs <;> rfl

theorem exists_read_eq_ok_iff (line : Nat) (raw : Text) :
    (∃ cells, read line raw = .ok cells) ↔
      raw.trimBlanks.head? = some '|' ∧ 2 ≤ (separators raw.trimBlanks).length ∧
        (leftover raw.trimBlanks).all isBlank = true := by
  rw [read_eq]
  split_ifs with hhead hclosed hlength
  · exact iff_of_false nofun fun hrow => hhead hrow.1
  · exact iff_of_false nofun fun hrow => hlength.not_ge hrow.2.1
  · exact iff_of_true ⟨_, rfl⟩ ⟨not_not.mp hhead, not_lt.mp hlength, hclosed⟩
  · exact iff_of_false nofun fun hrow => hclosed hrow.2.2

/-- This is how an assembly reads the row of a token. -/
theorem addRow_eq (assembly : Assembly) (line : Nat) (raw : Text) (first? : Option Row)
    (place : Row → Phase) :
    assembly.addRow line raw first? place =
      match read line raw with
      | .error diagnostic => .rejected assembly diagnostic
      | .ok cells =>
          let row : Row := { assembly.node line with cells := cells }
          match row.widthFault? first? with
          | some cause => .rejected { assembly with pending := {} } ⟨line, cause⟩
          | none => .accepted (assembly.enter (place row)) := by
  unfold Assembly.addRow read
  cases decode raw <;> rfl

/-- A row is read exactly if it begins with a pipe, has two separators and nothing but
blanks behind the last of them.  Its cells are the texts between one separator and the
next, trimmed and then with their escapes resolved, which comes to the same as the other
way round.  A row that is not read is malformed at its line: it does not begin with a
pipe, or else it is not closed, or else it has no cells. -/
theorem read_follows_separators (line : Nat) (raw : Text) :
    let row := raw.trimBlanks
    let cells := (spans row).map fun span => unescape span.trimBlanks
    let malformed (fault : RowFault) : Except Diagnostic (List Text) :=
      .error ⟨line, .malformedRow fault.reason⟩
    ((∃ found, read line raw = .ok found) ↔
        row.head? = some '|' ∧ 2 ≤ (separators row).length ∧
          (leftover row).all isBlank = true) ∧
      (read line raw =
        if row.head? ≠ some '|' then malformed .noOpeningPipe
        else if ¬ (leftover row).all isBlank then malformed .noClosingPipe
        else if (separators row).length < 2 then malformed .noCells
        else .ok cells) ∧
      cells.length = (separators row).length - 1 ∧
      cells = (spans row).map (fun span => (unescape span).trimBlanks) ∧
      ∀ (assembly : Assembly) (first? : Option Row) (place : Row → Phase),
        assembly.addRow line raw first? place =
          match read line raw with
          | .error diagnostic => .rejected assembly diagnostic
          | .ok found =>
              let row : Row := { assembly.node line with cells := found }
              match row.widthFault? first? with
              | some cause => .rejected { assembly with pending := {} } ⟨line, cause⟩
              | none => .accepted (assembly.enter (place row)) := by
  intro row cells malformed
  refine ⟨exists_read_eq_ok_iff line raw, read_eq line raw, ?_, ?_, fun assembly =>
    addRow_eq assembly line raw⟩
  · rw [List.length_map, length_spans]
  · simp only [cells, trimBlanks_unescape]

end Gherkin.Cells
