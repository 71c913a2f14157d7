import Gherkin.Proofs.Keyword.Registered
import Gherkin.Proofs.Passages

/-!
# Where constructs are written

A construct that a keyword opens keeps the number of its line, its keyword and its name.
They are enough to write the line again, up to the white space in it: the line is the
keyword and the name with nothing but white space between them, and with a colon behind
the keyword unless it opens a step.  The keyword is a literal of the table as it was
registered, so the table still tells what it opens.
-/

namespace Gherkin

/-- The line with the number, counted from one, without white space around it. -/
def Text.trimmedLine? (document : Text) (number : Nat) : Option Text :=
  match number with
  | 0 => none
  | index + 1 => document.lines[index]?.map Text.trim

/-! ## Lines that a keyword opens -/

namespace KeywordLine

/-- The line is the keyword and the text with white space between them.  A structural
keyword is followed by a colon, and a step without text by nothing. -/
inductive Spells (opening : KeywordLine) : Text → Prop
  | structural {blanks gap : Text} (hrole : opening.role.isStructural = true)
      (hblanks : ∀ c ∈ blanks, isBlank c = true) (hgap : ∀ c ∈ gap, isWhite c = true) :
      Spells opening (opening.keyword ++ (blanks ++ ':' :: (gap ++ opening.text)))
  | bare (hrole : opening.role.isStructural = false) (htext : opening.text = []) :
      Spells opening opening.keyword
  | step {gap : Text} (hrole : opening.role.isStructural = false)
      (htext : opening.text ≠ []) (hne : gap ≠ [])
        (hgap : ∀ c ∈ gap, isWhite c = true) :
      Spells opening (opening.keyword ++ (gap ++ opening.text))

variable {line literal : Text} {role : Role} {opening : KeywordLine}

/-- Behind the literal of a step comes nothing, or white space and a text. -/
theorem spells_of_head?_isWhite {rest : Text} (hrole : role.isStructural = false)
    (hhead : rest.head?.all isWhite = true)
    (hlast : ∀ c ∈ rest.getLast?, isWhite c = false) :
    Spells ⟨role, literal, rest.trim⟩ (literal ++ rest) := by
  by_cases hrest : rest = []
  · subst hrest
    rw [List.append_nil]
    exact .bare hrole rfl
  obtain ⟨gap, hgap, hsplit⟩ := Text.exists_eq_pad_trim hlast
  have htrimmed : rest.trim.IsTrimmed isWhite := Text.isTrimmed_trimWhile isWhite rest
  have hne : gap ≠ [] := by
    rintro rfl
    rw [hsplit, List.nil_append, Option.all_eq_true] at hhead
    obtain ⟨c, tail, hcons⟩ := List.exists_cons_of_ne_nil hrest
    rw [List.nil_append] at hsplit
    have hc : c ∈ rest.trim.head? := by rw [← hsplit, hcons]; rfl
    have hwhite := hhead c hc
    rw [htrimmed.head c hc] at hwhite
    cases hwhite
  have htext : rest.trim ≠ [] := by
    intro htext
    rw [htext, List.append_nil] at hsplit
    obtain ⟨front, c, hconcat⟩ := (List.eq_nil_or_concat rest).resolve_left hrest
    rw [List.concat_eq_append] at hconcat
    have hc : c ∈ rest.getLast? := by rw [hconcat, List.getLast?_concat]; rfl
    have hwhite := hgap c (hsplit ▸ List.mem_of_mem_getLast? hc)
    rw [hlast c hc] at hwhite
    cases hwhite
  conv => arg 2; rw [hsplit]
  exact .step hrole htext hne hgap

/-- A trimmed line that a trimmed literal opens is the literal and the text. -/
theorem spells_of_ofLiteral? (hliteral : literal.trimKeyword = literal)
    (hline : ∀ c ∈ line.getLast?, isWhite c = false)
    (hopening : ofLiteral? line literal role = some opening) :
    opening.role = role ∧ opening.keyword = literal ∧ opening.Spells line := by
  obtain ⟨rest, rfl⟩ := isPrefix_of_ofLiteral? hopening
  have hrest : ∀ c ∈ rest.getLast?, isWhite c = false := fun c hc =>
    hline c (Text.getLast?_of_isSuffix (List.suffix_append _ _) c hc)
  rw [ofLiteral?_append, hliteral] at hopening
  split at hopening
  · next hrole =>
      split at hopening
      · next text hblanks =>
          have hsplit : rest = rest.takeWhile isBlank ++ ':' :: text := by
            rw [← hblanks, Text.dropBlanks, List.takeWhile_append_dropWhile]
          have hend : text <:+ rest :=
            (List.suffix_cons ':' text).trans (hblanks ▸ List.dropWhile_suffix isBlank)
          obtain ⟨gap, hgap, htext⟩ := Text.exists_eq_pad_trim fun c hc =>
            hrest c (Text.getLast?_of_isSuffix hend c hc)
          obtain rfl := Option.some.inj hopening
          refine ⟨rfl, rfl, ?_⟩
          rw [hsplit]
          conv => arg 2; rw [htext]
          exact .structural hrole (fun c hc => List.mem_takeWhile_imp hc) hgap
      · cases hopening
  · next hrole =>
      split at hopening
      · next hhead =>
          obtain rfl := Option.some.inj hopening
          have hstep : role.isStructural = false := Bool.eq_false_iff.mpr hrole
          exact ⟨rfl, rfl, spells_of_head?_isWhite hstep hhead hrest⟩
      · cases hopening

end KeywordLine

/-- What a table of registered literals reads in a line has the role of its keyword. -/
theorem KeywordTable.IsRegular.spells_of_readLine? {table : KeywordTable}
    (hregular : table.IsRegular) {line : Text} {opening : KeywordLine}
    (hline : ∀ c ∈ line.getLast?, isWhite c = false)
    (hopening : table.readLine? line = some opening) :
    table.roleOf? opening.keyword = some opening.role ∧
      opening.text.IsTrimmed isWhite ∧ opening.Spells line := by
  obtain ⟨⟨literal, role⟩, hentry, hread⟩ := List.exists_of_findSome?_eq_some hopening
  have hliteral := hregular.trimKeyword_eq literal (List.mem_map_of_mem hentry)
  obtain ⟨hrole, hkeyword, hspells⟩ :=
    KeywordLine.spells_of_ofLiteral? hliteral hline hread
  obtain ⟨-, -, text, -, htext⟩ := KeywordLine.eq_of_ofLiteral? hread
  refine ⟨?_, ?_, hspells⟩
  · rw [hkeyword, hrole]
    exact hregular.roleOf?_eq hentry
  · rw [htext]
    exact Text.isTrimmed_trimWhile isWhite text

namespace LineKind

variable {keywords : KeywordTable} {line : Text} {opening : KeywordLine}

theorem readLine?_of_ofLine_eq_keyword
    (hkind : ofLine keywords line = keyword opening) :
    keywords.readLine? line.trim = some opening := by
  simp only [ofLine] at hkind
  split at hkind
  · next hread => rw [hread, keyword.inj hkind]
  · repeat' split at hkind
    all_goals cases hkind

end LineKind

/-! ## Constructs and their lines -/

theorem Token.keyword?_eq_some {token : Token} {number : Nat} {opening : KeywordLine} :
    token.keyword? = some (number, opening) ↔
      token = ⟨number, .keyword opening⟩ := by
  rcases token with ⟨line, kind⟩
  cases kind <;> simp [keyword?]

/-- The table gives the keyword its role, and the line with the number is opened by it.
-/
structure KeywordLine.StandsAt (opening : KeywordLine) (keywords : KeywordTable)
    (document : Text) (number : Nat) : Prop where
  role_eq : keywords.roleOf? opening.keyword = some opening.role
  trimmed : opening.text.IsTrimmed isWhite
  spells : ∃ line, document.trimmedLine? number = some line ∧ opening.Spells line

/-- Every token of a document is the line with its number, read by itself. -/
theorem exists_trimmedLine?_of_mem_scan {keywords : KeywordTable} {document : Text}
    {token : Token} (htoken : token ∈ (scan keywords document).tokens) :
    ∃ line, document.trimmedLine? token.line = some line.trim ∧
      (token.kind = LineKind.ofLine keywords line ∨
        ∃ fence, token.kind = LineKind.ofContentLine fence line) := by
  rw [scan_eq_scanLines] at htoken
  obtain ⟨index, line, hnumber, hline, hkind⟩ := Scanner.exists_getElem?_of_mem htoken
  refine ⟨line, ?_, hkind⟩
  rw [hnumber, Nat.zero_add, Text.trimmedLine?]
  exact congrArg (Option.map Text.trim) hline

/-- A keyword that was scanned stands at the line of its token. -/
theorem standsAt_of_mem_scan {keywords : KeywordTable} (hkeywords : keywords.IsRegular)
    {document : Text} {number : Nat} {opening : KeywordLine}
    (htoken : ⟨number, .keyword opening⟩ ∈ (scan keywords document).tokens) :
    opening.StandsAt keywords document number := by
  obtain ⟨line, hline, hkind⟩ := exists_trimmedLine?_of_mem_scan htoken
  have hread : keywords.readLine? line.trim = some opening := by
    rcases hkind with hkind | ⟨fence, hkind⟩
    · exact LineKind.readLine?_of_ofLine_eq_keyword hkind.symm
    · obtain ⟨_, hcases⟩ | hcases :=
        LineKind.cases_of_ofContentLine hkind <;> cases hcases
  have htrimmed : line.trim.IsTrimmed isWhite := Text.isTrimmed_trimWhile isWhite line
  obtain ⟨hrole, htext, hspells⟩ := hkeywords.spells_of_readLine? htrimmed.last hread
  exact ⟨hrole, htext, line.trim, hline, hspells⟩

/-- Every heading of a document that is read stands at its line. -/
theorem standsAt_of_mem_headings {config : Config} {uri document : Text}
    {feature : Feature} (hkeywords : config.keywords.IsBuilt)
    (hparse : parse config uri document = .ok feature) {heading : Heading}
    (hheading : heading ∈ feature.headings) :
    heading.opening.StandsAt config.keywords document heading.node.line := by
  have hmem : (heading.node.line, heading.opening) ∈
      (scan config.keywords document).tokens.filterMap Token.keyword? :=
    map_opening_of_parse hparse ▸ List.mem_map_of_mem hheading
  obtain ⟨token, htoken, hopening⟩ := List.mem_filterMap.mp hmem
  rw [Token.keyword?_eq_some.mp hopening] at htoken
  exact standsAt_of_mem_scan hkeywords.isRegular htoken

/-- The table gives the keyword its role, and the line of the node is the keyword,
blanks, a colon, white space and the name. -/
structure Node.IsTitled (node : Node) (keywords : KeywordTable) (document : Text)
    (role : Role) (keyword name : Text) : Prop where
  role_eq : keywords.roleOf? keyword = some role
  line_eq : ∃ blanks gap : Text,
    (∀ c ∈ blanks, isBlank c = true) ∧ (∀ c ∈ gap, isWhite c = true) ∧
      document.trimmedLine? node.line =
        some (keyword ++ (blanks ++ ':' :: (gap ++ name)))

/-- The table gives the keyword the kind of the step, and the line of the step is the
keyword alone, or the keyword, white space and the name.  Behind a single space the line
is the step as written. -/
structure Step.IsPhrased (step : Step) (keywords : KeywordTable) (document : Text) :
    Prop where
  role_eq : keywords.roleOf? step.keyword = some (.step step.kind)
  line_eq :
    (step.name = [] ∧ document.trimmedLine? step.line = some step.keyword) ∨
      ∃ gap : Text, gap ≠ [] ∧ (∀ c ∈ gap, isWhite c = true) ∧
        step.name.IsTrimmed isWhite ∧
        document.trimmedLine? step.line = some (step.keyword ++ (gap ++ step.name)) ∧
        (gap = [' '] → document.trimmedLine? step.line = some step.text)

theorem KeywordLine.StandsAt.isTitled {keywords : KeywordTable} {document : Text}
    {node : Node} {role : Role} {keyword name : Text}
    (hstands : KeywordLine.StandsAt ⟨role, keyword, name⟩ keywords document node.line)
    (hrole : role.isStructural = true) :
    node.IsTitled keywords document role keyword name := by
  obtain ⟨line, hline, hspells⟩ := hstands.spells
  refine ⟨hstands.role_eq, ?_⟩
  cases hspells with
  | structural _ hblanks hgap => exact ⟨_, _, hblanks, hgap, hline⟩
  | bare hstep | step hstep =>
      rw [hrole] at hstep
      cases hstep

theorem KeywordLine.StandsAt.isPhrased {keywords : KeywordTable} {document : Text}
    {step : Step}
    (hstands : step.heading.opening.StandsAt keywords document step.line) :
    step.IsPhrased keywords document := by
  obtain ⟨line, hline, hspells⟩ := hstands.spells
  refine ⟨hstands.role_eq, ?_⟩
  cases hspells with
  | structural hrole => cases hrole
  | bare _ hname => exact .inl ⟨hname, hline⟩
  | @step gap _ hname hne hgap =>
      refine .inr ⟨gap, hne, hgap, hstands.trimmed, hline, fun hspace => ?_⟩
      have hempty : step.name.isEmpty = false := List.isEmpty_eq_false_iff.mpr hname
      rw [hline, hspace, Step.text, hempty]
      rfl

theorem ContainerKind.isStructural_role (kind : ContainerKind) :
    kind.role.isStructural = true := by
  cases kind <;> rfl

/-- Everything that a keyword opens in a document points at the line that it was written
on.  That line is the keyword and the name with white space between them, and the table
gives the keyword the role of what it opens. -/
theorem parse_points_at_lines {config : Config} {uri document : Text}
    {feature : Feature} (hkeywords : config.keywords.IsBuilt)
    (hparse : parse config uri document = .ok feature) :
    feature.toNode.IsTitled config.keywords document .feature feature.keyword
        feature.name ∧
      ∀ container ∈ feature.containers,
        container.toNode.IsTitled config.keywords document container.kind.role
            container.keyword container.name ∧
          (∀ step ∈ container.steps, step.IsPhrased config.keywords document) ∧
          ∀ group ∈ container.groups,
            group.toNode.IsTitled config.keywords document .examples group.keyword
              group.name := by
  have hstands {heading : Heading} (hheading : heading ∈ feature.headings) :=
    standsAt_of_mem_headings hkeywords hparse hheading
  refine ⟨(hstands List.mem_cons_self).isTitled rfl, fun container hcontainer => ?_⟩
  refine ⟨?_, fun step hstep => ?_, fun group hgroup => ?_⟩
  · exact (hstands (Feature.heading_mem_of_mem_containers hcontainer)).isTitled
      container.kind.isStructural_role
  · exact (hstands (Feature.heading_mem_of_mem_steps hcontainer hstep)).isPhrased
  · exact (hstands (Feature.heading_mem_of_mem_groups hcontainer hgroup)).isTitled rfl

/-- The English table with one more literal for a step. -/
def extendedTable : KeywordTable :=
  .register .english "Étant donné".toList (.step .given)

/-- A document with a byte order mark, and with white space wherever there may be some.
-/
def spacedDocument : Text :=
  "\uFEFFFeature :F\r\n\tScenario: \tS\n\n Étant donné\t x \n*\n".toList

def spacedFeature : Feature where
  uri := "u".toList
  line := 1
  comments := []
  tags := []
  keyword := "Feature".toList
  name := "F".toList
  description := []
  backgrounds := []
  scenarios :=
    [{  uri := "u".toList, line := 2, comments := [], tags := []
        keyword := "Scenario".toList, name := "S".toList, description := []
        kind := .scenario
        steps :=
          [{  uri := "u".toList, line := 4, comments := [], tags := []
              keyword := "Étant donné".toList, kind := .given, name := "x".toList
              docs := [], rows := [] },
            { uri := "u".toList, line := 5, comments := [], tags := []
              keyword := "*".toList, kind := .and, name := []
              docs := [], rows := [] }] }]
  trailingComments := []

theorem parse_points_at_lines_spacedDocument :
    extendedTable.IsBuilt ∧
      parse { keywords := extendedTable } "u".toList spacedDocument =
        .ok spacedFeature ∧
      ∀ container ∈ spacedFeature.containers,
        container.toNode.IsTitled extendedTable spacedDocument .scenario
            "Scenario".toList "S".toList ∧
          ∀ step ∈ container.steps, step.IsPhrased extendedTable spacedDocument := by
  have hbuilt : extendedTable.IsBuilt :=
    KeywordTable.IsBuilt.english.register "Étant donné".toList (.step .given)
  have hparse : parse { keywords := extendedTable } "u".toList spacedDocument =
      .ok spacedFeature := rfl
  obtain ⟨-, hcontainers⟩ := parse_points_at_lines hbuilt hparse
  refine ⟨hbuilt, hparse, fun container hcontainer => ?_⟩
  obtain ⟨htitled, hphrased, -⟩ := hcontainers container hcontainer
  obtain rfl := List.mem_singleton.mp hcontainer
  exact ⟨htitled, hphrased⟩

end Gherkin
