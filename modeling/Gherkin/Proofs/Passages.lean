import Gherkin.Proofs.Document.Headings
import Gherkin.Proofs.Parsed
import Gherkin.Proofs.Text.Joined
import Gherkin.Proofs.Token.Scanned
import Mathlib.Data.List.Forall2
import Mathlib.Data.List.Induction
import Mathlib.Data.List.ModifyLast

/-!
# From passages to headings

A passage is what stands between two keywords: the keyword line itself and every
token up to the next keyword.  A document is read passage by passage.  Each passage
becomes one heading, in the order of the passages, and everything that heading has
comes from the passage: its description from the texts, its rows from the table
rows, and its doc strings from the fences and the lines between them.  What stands
in front of the first keyword becomes nothing.
-/

namespace Gherkin

namespace Token

/-- The line and the keyword of a token that holds one. -/
def keyword? (token : Token) : Option (Nat × KeywordLine) :=
  match token.kind with
  | .keyword opening => some (token.line, opening)
  | _ => none

def text? (token : Token) : Option Text :=
  match token.kind with
  | .text said => some said
  | _ => none

/-- The line and the cells of a token that holds a table row. -/
def row? (token : Token) : Option (Nat × Except RowFault (List Text)) :=
  match token.kind with
  | .tableRow raw => some (token.line, Cells.decode raw)
  | _ => none

theorem text?_eq_some {token : Token} {said : Text} :
    token.text? = some said ↔ token.kind = .text said := by
  rcases token with ⟨line, kind⟩
  cases kind <;> simp [text?]

end Token

/-- The doc strings that stand in a list of tokens, one for each pair of fences, in
their order. -/
inductive DocStrings : List Token → List DocString → Prop
  | nil : DocStrings [] []
  | skip {token : Token} {tokens : List Token} {docs : List DocString}
      (hfence : ∀ opening, token.kind ≠ .fence opening)
      (hcontent : ¬ token.kind.IsContent) (hrest : DocStrings tokens docs) :
      DocStrings (token :: tokens) docs
  | pair {line : Nat} {opening : FenceLine} {contents : List (Nat × Text)}
      {closing : Token} {tokens : List Token} {docs : List DocString}
      (hclosing : closing.kind.IsFence opening.fence) (hrest : DocStrings tokens docs) :
      DocStrings
        (⟨line, .fence opening⟩ ::
          (contents.map (fun content => ⟨content.1, .content content.2⟩) ++
            closing :: tokens))
        ({ line := line, fence := opening.fence, contentType? := opening.contentType?,
           content := Text.joinLines
             (contents.map fun content => opening.content content.2) } :: docs)

theorem DocStrings.append {front back : List Token} {docs others : List DocString}
    (hfront : DocStrings front docs) (hback : DocStrings back others) :
    DocStrings (front ++ back) (docs ++ others) := by
  induction hfront with
  | nil => exact hback
  | skip hfence hcontent _ ih => exact .skip hfence hcontent ih
  | pair hclosing _ ih =>
      rw [List.cons_append, List.append_assoc]
      exact .pair hclosing ih

/-- The doc string comes from one of the fences and from lines of content: it has the
content type of the fence, and what the fence makes of the lines is joined by line
feeds. -/
structure DocString.ComesFrom (doc : DocString) (tokens : List Token)
    (opening : FenceLine) (contents : List Text) : Prop where
  fence_mem : ∃ token ∈ tokens, token.kind = .fence opening
  content_mem : ∀ content ∈ contents, ∃ token ∈ tokens, token.kind = .content content
  fence_eq : doc.fence = opening.fence
  contentType?_eq : doc.contentType? = opening.contentType?
  content_eq : doc.content = Text.joinLines (contents.map opening.content)

theorem DocString.ComesFrom.of_subset {doc : DocString} {tokens others : List Token}
    {opening : FenceLine} {contents : List Text}
    (hdoc : doc.ComesFrom tokens opening contents) (htokens : tokens ⊆ others) :
    doc.ComesFrom others opening contents :=
  { hdoc with
    fence_mem := hdoc.fence_mem.imp fun _ => And.imp_left (@htokens _)
    content_mem := fun content hcontent =>
      (hdoc.content_mem content hcontent).imp fun _ => And.imp_left (@htokens _) }

theorem DocStrings.exists_comesFrom {tokens : List Token} {docs : List DocString}
    (hdocs : DocStrings tokens docs) {doc : DocString} (hdoc : doc ∈ docs) :
    ∃ opening contents, doc.ComesFrom tokens opening contents := by
  induction hdocs with
  | nil => cases hdoc
  | skip _ _ _ ih =>
      obtain ⟨opening, contents, hfrom⟩ := ih hdoc
      exact ⟨opening, contents, hfrom.of_subset (List.subset_cons_self _ _)⟩
  | @pair line opening contents closing tokens docs _ _ ih =>
      rcases List.mem_cons.mp hdoc with rfl | hdoc
      · refine ⟨opening, contents.map Prod.snd, ?_, ?_, rfl, rfl, ?_⟩
        · exact ⟨_, List.mem_cons_self, rfl⟩
        · intro content hcontent
          obtain ⟨numbered, hnumbered, rfl⟩ := List.mem_map.mp hcontent
          exact ⟨⟨numbered.1, .content numbered.2⟩, by simp [hnumbered], rfl⟩
        · rw [List.map_map]
          rfl
      · obtain ⟨other, others, hfrom⟩ := ih hdoc
        refine ⟨other, others, hfrom.of_subset fun token htoken => ?_⟩
        simp [htoken]

/-- The tokens of a doc string that is still open. -/
def OpenDoc.Spans (doc : OpenDoc) (tokens : List Token) : Prop :=
  ∃ contents : List (Nat × Text),
    tokens = ⟨doc.line, .fence doc.opening⟩ ::
      contents.map (fun content => ⟨content.1, .content content.2⟩) ∧
    doc.contents = contents.map fun content => doc.opening.content content.2

namespace OpenDoc

variable {doc : OpenDoc} {tokens : List Token}

theorem spans_opening (line : Nat) (opening : FenceLine) :
    ({ line := line, opening := opening } : OpenDoc).Spans [⟨line, .fence opening⟩] :=
  ⟨[], rfl, rfl⟩

theorem Spans.push (hspans : doc.Spans tokens) (number : Nat) (line : Text) :
    (doc.push line).Spans (tokens ++ [⟨number, .content line⟩]) := by
  obtain ⟨contents, rfl, hcontents⟩ := hspans
  refine ⟨contents ++ [(number, line)], ?_, ?_⟩
  · rw [List.map_append]
    rfl
  · rw [List.map_append, OpenDoc.push, hcontents]
    rfl

/-- With the fence that closes it an open doc string becomes the doc string of its
tokens. -/
theorem Spans.close (hspans : doc.Spans tokens) {closing : Token}
    (hclosing : closing.kind.IsFence doc.opening.fence) :
    DocStrings (tokens ++ [closing]) [doc.close] := by
  obtain ⟨contents, rfl, hcontents⟩ := hspans
  rw [OpenDoc.close, hcontents]
  exact .pair hclosing .nil

end OpenDoc

/-! ## Passages -/

/-- A keyword line and the tokens up to the next one. -/
structure Passage where
  line : Nat
  opening : KeywordLine
  body : List Token
deriving DecidableEq, Repr

namespace Passage

/-- The passage with one more token in it. -/
def push (passage : Passage) (token : Token) : Passage :=
  { passage with body := passage.body ++ [token] }

/-- The heading says what the passage says, its doc strings apart. -/
structure Covers (uri : Text) (passage : Passage) (heading : Heading) : Prop where
  uri_eq : heading.node.uri = uri
  line_eq : heading.node.line = passage.line
  opening_eq : heading.opening = passage.opening
  description_eq :
    heading.description = Text.joinLines (passage.body.filterMap Token.text?)
  rows_eq :
    heading.rows.map (fun row => (row.line, .ok row.cells)) =
      passage.body.filterMap Token.row?
  rows_uri_eq : ∀ row ∈ heading.rows, row.uri = uri

/-- The heading says what the passage says. -/
structure Yields (uri : Text) (passage : Passage) (heading : Heading) : Prop
    extends Covers uri passage heading where
  docs : DocStrings passage.body heading.docs

end Passage

/-- The passages with one more token behind them.  In front of the first keyword a
token belongs to no passage. -/
def Passage.next (passages : List Passage) (token : Token) : List Passage :=
  match token.kind with
  | .keyword opening => passages ++ [⟨token.line, opening, []⟩]
  | _ => passages.modifyLast (push · token)

def passages (tokens : List Token) : List Passage :=
  tokens.foldl Passage.next []

theorem passages_concat (tokens : List Token) (token : Token) :
    passages (tokens ++ [token]) = Passage.next (passages tokens) token := by
  rw [passages, List.foldl_append]
  rfl

theorem Passage.next_of_keyword? {token : Token} (hkeyword : token.keyword? = none)
    (passages : List Passage) :
    Passage.next passages token = passages.modifyLast (push · token) := by
  unfold Token.keyword? at hkeyword
  unfold Passage.next
  split at hkeyword <;> simp_all

theorem Passage.next_eq_concat {token : Token} {line : Nat} {opening : KeywordLine}
    (hkeyword : token.keyword? = some (line, opening)) (passages : List Passage) :
    Passage.next passages token = passages ++ [⟨line, opening, []⟩] := by
  unfold Token.keyword? at hkeyword
  unfold Passage.next
  split at hkeyword <;> simp_all

/-- There are as many passages as keywords, and each one starts with its own. -/
theorem map_opening_passages (tokens : List Token) :
    (passages tokens).map (fun passage => (passage.line, passage.opening)) =
      tokens.filterMap Token.keyword? := by
  induction tokens using List.reverseRecOn with
  | nil => rfl
  | append_singleton tokens token ih =>
      rw [passages_concat, List.filterMap_append, ← ih]
      rcases hkeyword : token.keyword? with _ | ⟨line, opening⟩
      · rw [Passage.next_of_keyword? hkeyword, List.filterMap_cons_none hkeyword]
        rcases List.eq_nil_or_concat (passages tokens) with hnil | ⟨front, last, hlast⟩
        · rw [hnil]
          rfl
        · rw [hlast, List.concat_eq_append, List.modifyLast_concat]
          simp [Passage.push]
      · rw [Passage.next_eq_concat hkeyword, List.filterMap_cons_some hkeyword]
        simp

/-! ## Reading passage by passage -/

namespace Passage

variable {uri : Text} {passage : Passage} {heading : Heading} {token : Token}

/-- A token that is neither text nor a row adds nothing to the heading. -/
theorem Covers.push (hcovers : passage.Covers uri heading) (htext : token.text? = none)
    (hrow : token.row? = none) : (passage.push token).Covers uri heading :=
  { hcovers with
    description_eq := by
      rw [hcovers.description_eq, Passage.push, List.filterMap_append,
        List.filterMap_cons_none htext, List.filterMap_nil, List.append_nil]
    rows_eq := by
      rw [hcovers.rows_eq, Passage.push, List.filterMap_append,
        List.filterMap_cons_none hrow, List.filterMap_nil, List.append_nil] }

/-- A text is one more line of the description. -/
theorem Covers.push_text {said : Text} (hcovers : passage.Covers uri heading)
    (hbody : ∀ other ∈ passage.body, other.text? ≠ some [])
    (hkind : token.kind = .text said) :
    (passage.push token).Covers uri
      { heading with description := heading.description.addLine said } := by
  have htext : token.text? = some said := by rw [Token.text?, hkind]
  have hrow : token.row? = none := by rw [Token.row?, hkind]
  have hlines : ∀ line ∈ passage.body.filterMap Token.text?, line ≠ [] := by
    intro line hline hnil
    obtain ⟨other, hother, hsaid⟩ := List.mem_filterMap.mp hline
    exact hbody other hother (hnil ▸ hsaid)
  refine { hcovers with description_eq := ?_, rows_eq := ?_ }
  · rw [hcovers.description_eq, Text.addLine_joinLines hlines, Passage.push,
      List.filterMap_append, List.filterMap_cons_some htext, List.filterMap_nil]
  · rw [hcovers.rows_eq, Passage.push, List.filterMap_append,
      List.filterMap_cons_none hrow, List.filterMap_nil, List.append_nil]

/-- A row that can be read is one more row of the table. -/
theorem Covers.push_row {raw : Text} {cells : List Text} {node : Node}
    (hcovers : passage.Covers uri heading) (hkind : token.kind = .tableRow raw)
    (hcells : Cells.decode raw = .ok cells) (huri : node.uri = uri)
    (hline : node.line = token.line) :
    (passage.push token).Covers uri
      { heading with rows := heading.rows ++ [⟨node, cells⟩] } := by
  have htext : token.text? = none := by rw [Token.text?, hkind]
  have hrow : token.row? = some (token.line, .ok cells) := by
    rw [Token.row?, hkind]
    exact congrArg (fun read => some (token.line, read)) hcells
  refine { hcovers with description_eq := ?_, rows_eq := ?_, rows_uri_eq := ?_ }
  · rw [hcovers.description_eq, Passage.push, List.filterMap_append,
      List.filterMap_cons_none htext, List.filterMap_nil, List.append_nil]
  · rw [List.map_append, hcovers.rows_eq, Passage.push, List.filterMap_append,
      List.filterMap_cons_some hrow, List.filterMap_nil, List.map_singleton, hline]
  · intro row hrow
    rcases List.mem_append.mp hrow with hrow | hrow
    · exact hcovers.rows_uri_eq row hrow
    · rw [List.mem_singleton.mp hrow]
      exact huri

/-- What a passage covers does not depend on the doc strings. -/
theorem Covers.withDocs (hcovers : passage.Covers uri heading) (docs : List DocString) :
    passage.Covers uri { heading with docs := docs } :=
  { hcovers with }

end Passage

/-- A token that is neither a fence nor content adds no doc string. -/
theorem DocStrings.concat {tokens : List Token} {docs : List DocString} {token : Token}
    (hdocs : DocStrings tokens docs) (hfence : ∀ opening, token.kind ≠ .fence opening)
    (hcontent : ¬ token.kind.IsContent) : DocStrings (tokens ++ [token]) docs := by
  have happend := hdocs.append (.skip hfence hcontent .nil)
  rwa [List.append_nil] at happend

namespace Phase

/-- The doc strings of the passage that is being read: those that are closed, and
the one that is open behind them. -/
def Quotes (phase : Phase) (body : List Token) (docs : List DocString) : Prop :=
  match phase.doc? with
  | none => DocStrings body docs
  | some doc => ∃ front back, body = front ++ back ∧ DocStrings front docs ∧
      doc.Spans back

/-- All passages but the last have become headings, and the last one has as far as it
was read. -/
def Recounts (phase : Phase) (uri : Text) (passages : List Passage) : Prop :=
  (phase = .awaiting ∧ passages = []) ∨
    ∃ passagesDone passage headingsDone heading,
      passages = passagesDone ++ [passage] ∧ phase.headings =
        headingsDone ++ [heading] ∧
      List.Forall₂ (Passage.Yields uri) passagesDone headingsDone ∧
      passage.Covers uri heading ∧ phase.Quotes passage.body heading.docs

variable {phase next : Phase} {uri : Text} {passages : List Passage} {token : Token}

theorem quotes_of_doc?_eq_none (hdoc : phase.doc? = none) {body : List Token}
    {docs : List DocString} : phase.Quotes body docs ↔ DocStrings body docs := by
  rw [Quotes, hdoc]

theorem quotes_of_doc?_eq_some {doc : OpenDoc} (hdoc : phase.doc? = some doc)
    {body : List Token} {docs : List DocString} :
    phase.Quotes body docs ↔
      ∃ front back, body = front ++ back ∧ DocStrings front docs ∧ doc.Spans back := by
  rw [Quotes, hdoc]

/-- Outside doc strings the last passage is read to its end. -/
theorem Recounts.yields (hrecounts : phase.Recounts uri passages)
    (hdoc : phase.doc? = none) :
    List.Forall₂ (Passage.Yields uri) passages phase.headings := by
  rcases hrecounts with ⟨rfl, rfl⟩ |
    ⟨passagesDone, passage, headingsDone, heading, rfl, hheadings, hdone,
      hcovers, hquotes⟩
  · exact .nil
  · rw [hheadings]
    have hyields : passage.Yields uri heading :=
      { hcovers with docs := (quotes_of_doc?_eq_none hdoc).mp hquotes }
    exact List.rel_append hdone (.cons hyields .nil)

/-- A token that opens no construct changes the last passage and its heading. -/
theorem Recounts.push {front : List Heading} {heading changed : Heading}
    (hrecounts : phase.Recounts uri passages) (hkeyword : token.keyword? = none)
    (hheadings : phase.headings = front ++ [heading])
    (hnext : next.headings = front ++ [changed])
    (hpush : ∀ passage ∈ passages, passage.Covers uri heading →
      phase.Quotes passage.body heading.docs →
        (passage.push token).Covers uri changed ∧
          next.Quotes (passage.push token).body changed.docs) :
    next.Recounts uri (Passage.next passages token) := by
  rcases hrecounts with ⟨rfl, rfl⟩ |
    ⟨passagesDone, passage, headingsDone, last, rfl, hlast, hdone, hcovers, hquotes⟩
  · exact absurd hheadings (by simp [headings, feature?])
  · obtain ⟨rfl, rfl⟩ := List.append_singleton_inj.mp (hlast.symm.trans hheadings)
    obtain ⟨hcovers, hquotes⟩ := hpush passage (by simp) hcovers hquotes
    rw [Passage.next_of_keyword? hkeyword, List.modifyLast_concat]
    exact .inr ⟨_, _, _, _, rfl, hnext, hdone, hcovers, hquotes⟩

theorem Opens.recounts {node : Node} (hsound : phase.Sound)
    (hrecounts : phase.Recounts uri passages) (huri : node.uri = uri)
    (hline : node.line = token.line) (hopens : phase.Opens node token.kind next) :
    next.Recounts uri (Passage.next passages token) := by
  have hdoc := hopens.doc?_eq_none
  have hnext := hopens.doc?_next_eq_none
  rcases hkind : token.kind with opening | _ | _ | raw | _ | _ | _ | _ <;>
    rw [hkind] at hopens
  case keyword =>
    have hcovers :
        Passage.Covers uri ⟨token.line, opening, []⟩ (opening.heading node) := by
      refine ⟨huri, hline, rfl, rfl, rfl, nofun⟩
    rw [Passage.next, hkind]
    exact .inr ⟨passages, _, phase.headings, _, rfl, hopens.headings_keyword hsound,
      hrecounts.yields hdoc, hcovers, (quotes_of_doc?_eq_none hnext).mpr .nil⟩
  case tableRow =>
    obtain ⟨front, last, cells, hcells, hheadings, hnextHeadings⟩ :=
      hopens.headings_tableRow hsound
    have hkeyword : token.keyword? = none := by rw [Token.keyword?, hkind]
    refine hrecounts.push hkeyword hheadings
      hnextHeadings fun passage _ hcovers hquotes => ?_
    refine ⟨hcovers.push_row hkind hcells huri hline, ?_⟩
    have hdocs := (quotes_of_doc?_eq_none hdoc).mp hquotes
    exact (quotes_of_doc?_eq_none hnext).mpr
      (hdocs.concat (by simp [hkind]) (by simp [hkind, LineKind.IsContent]))
  all_goals cases hopens

/-- In front of the feature there are no passages, and none are begun. -/
theorem Recounts.pass (hrecounts : awaiting.Recounts uri passages)
    (hkeyword : token.keyword? = none) :
    awaiting.Recounts uri (Passage.next passages token) := by
  rw [Passage.next_of_keyword? hkeyword]
  rcases hrecounts with ⟨-, rfl⟩ | ⟨_, _, _, _, -, hheadings, -⟩
  · exact .inl ⟨rfl, rfl⟩
  · exact absurd hheadings (by simp [headings, feature?])

theorem Extends.recounts_text {said : Text} (hsound : phase.Sound)
    (hrecounts : phase.Recounts uri passages) (hkind : token.kind = .text said)
    (hbody : ∀ passage ∈ passages, ∀ other ∈ passage.body, other.text? ≠ some [])
    (hextends : phase.Extends token.line (.text said) next) :
    next.Recounts uri (Passage.next passages token) := by
  obtain ⟨front, last, hheadings, hnext⟩ := hextends.headings_text hsound
  obtain ⟨hdoc, hnextDoc⟩ := hextends.doc?_of_text
  have hkeyword : token.keyword? = none := by rw [Token.keyword?, hkind]
  refine hrecounts.push hkeyword hheadings
    hnext fun passage hpassage hcovers hquotes => ?_
  have hdocs := (quotes_of_doc?_eq_none hdoc).mp hquotes
  have hconcat : DocStrings (passage.body ++ [token]) last.docs :=
    hdocs.concat (by simp [hkind]) (by simp [hkind, LineKind.IsContent])
  exact ⟨hcovers.push_text (hbody passage hpassage) hkind,
    (quotes_of_doc?_eq_none hnextDoc).mpr hconcat⟩

/-- A fence opens a doc string behind those that are closed, or closes the open
one. -/
theorem Extends.recounts_fence {fence : FenceLine} (hsound : phase.Sound)
    (hrecounts : phase.Recounts uri passages) (hkind : token.kind = .fence fence)
    (hextends : phase.Extends token.line (.fence fence) next) :
    next.Recounts uri (Passage.next passages token) := by
  have hnextSound := hextends.sound hsound
  have hkeyword : token.keyword? = none := by rw [Token.keyword?, hkind]
  have htext : token.text? = none := by rw [Token.text?, hkind]
  have hrow : token.row? = none := by rw [Token.row?, hkind]
  cases hextends with
  | pass => exact hrecounts.pass hkeyword
  | @opening _ _ _ slot _ hslot =>
      refine hrecounts.push hkeyword (headings_body_some hsound)
        (headings_body_some hnextSound) fun passage _ hcovers hquotes => ?_
      refine ⟨hcovers.push htext hrow, (quotes_of_doc?_eq_some rfl).mpr ?_⟩
      have hdocs :=
        (quotes_of_doc?_eq_none (doc?_body_eq_none_iff.mpr hslot)).mp hquotes
      have htoken : token = ⟨token.line, .fence fence⟩ := by rw [← hkind]
      exact ⟨passage.body, [token], rfl, hdocs, htoken ▸ OpenDoc.spans_opening _ _⟩
  | @closing _ _ _ doc _ hfence =>
      refine hrecounts.push hkeyword (headings_body_some hsound)
        (headings_body_some hnextSound) fun passage _ hcovers hquotes => ?_
      refine ⟨(hcovers.push htext hrow).withDocs _, (quotes_of_doc?_eq_none rfl).mpr ?_⟩
      obtain ⟨front, back, hbody, hdocs, hspans⟩ :=
        (quotes_of_doc?_eq_some rfl).mp hquotes
      have hclosing : token.kind.IsFence doc.opening.fence := by
        rw [hkind]
        exact hfence
      have hclosed := hspans.close hclosing
      rw [Passage.push, hbody, List.append_assoc]
      exact hdocs.append hclosed

theorem Extends.recounts_content {line : Text} (hsound : phase.Sound)
    (hrecounts : phase.Recounts uri passages) (hkind : token.kind = .content line)
    (hextends : phase.Extends token.line (.content line) next) :
    next.Recounts uri (Passage.next passages token) := by
  have hnextSound := hextends.sound hsound
  have hkeyword : token.keyword? = none := by rw [Token.keyword?, hkind]
  have htext : token.text? = none := by rw [Token.text?, hkind]
  have hrow : token.row? = none := by rw [Token.row?, hkind]
  cases hextends with
  | pass => exact hrecounts.pass hkeyword
  | content =>
      refine hrecounts.push hkeyword (headings_body_some hsound)
        (headings_body_some hnextSound) fun passage _ hcovers hquotes => ?_
      refine ⟨hcovers.push htext hrow, (quotes_of_doc?_eq_some rfl).mpr ?_⟩
      obtain ⟨front, back, hbody, hdocs, hspans⟩ :=
        (quotes_of_doc?_eq_some rfl).mp hquotes
      have htoken : token = ⟨token.line, .content line⟩ := by rw [← hkind]
      have hpushed := hspans.push token.line line
      rw [← htoken] at hpushed
      exact ⟨front, back ++ [token], by rw [Passage.push, hbody, List.append_assoc],
        hdocs, hpushed⟩

theorem Extends.recounts (hsound : phase.Sound)
    (hrecounts : phase.Recounts uri passages)
    (hbody : ∀ passage ∈ passages, ∀ other ∈ passage.body, other.text? ≠ some [])
    (hextends : phase.Extends token.line token.kind next) :
    next.Recounts uri (Passage.next passages token) := by
  rcases hkind : token.kind with _ | _ | _ | raw | fence | line | said | _ <;>
    rw [hkind] at hextends
  case text => exact hextends.recounts_text hsound hrecounts hkind hbody
  case fence => exact hextends.recounts_fence hsound hrecounts hkind
  case content => exact hextends.recounts_content hsound hrecounts hkind
  case tableRow =>
    cases hextends with
    | pass => exact hrecounts.pass (by rw [Token.keyword?, hkind])
  all_goals
    cases hextends with
    | pass hpreamble => exact hpreamble.elim

/-- An annotation belongs to the passage it stands in, but not to its heading. -/
theorem Recounts.annotate (hrecounts : phase.Recounts uri passages)
    (hdoc : phase.doc? = none) (hkind : token.kind.IsAnnotation) :
    phase.Recounts uri (Passage.next passages token) := by
  obtain ⟨hkeyword, htext, hrow, hfence, hcontent⟩ :
      token.keyword? = none ∧ token.text? = none ∧ token.row? = none ∧
        (∀ opening, token.kind ≠ .fence opening) ∧ ¬ token.kind.IsContent := by
    rcases token with ⟨line, kind⟩
    cases kind <;> first | exact hkind.elim | exact ⟨rfl, rfl, rfl, nofun, id⟩
  rcases phase.eq_awaiting_or_headings with rfl | ⟨front, heading, hheadings⟩
  · exact hrecounts.pass hkeyword
  · refine hrecounts.push hkeyword hheadings
      hheadings fun passage _ hcovers hquotes => ?_
    have hdocs := (quotes_of_doc?_eq_none hdoc).mp hquotes
    exact ⟨hcovers.push htext hrow,
      (quotes_of_doc?_eq_none hdoc).mpr (hdocs.concat hfence hcontent)⟩

end Phase

/-- Every token of a passage is one of the tokens it was taken from. -/
theorem mem_of_mem_passages {tokens : List Token} {passage : Passage} {token : Token}
    (hpassage : passage ∈ passages tokens) (htoken : token ∈ passage.body) :
    token ∈ tokens := by
  induction tokens using List.reverseRecOn generalizing passage with
  | nil => cases hpassage
  | append_singleton tokens last ih =>
      rw [passages_concat] at hpassage
      rcases hkeyword : last.keyword? with _ | ⟨line, opening⟩
      · rw [Passage.next_of_keyword? hkeyword] at hpassage
        rcases List.eq_nil_or_concat (passages tokens) with hnil | ⟨front, open', hopen⟩
        · rw [hnil] at hpassage
          cases hpassage
        · rw [List.concat_eq_append] at hopen
          rw [hopen, List.modifyLast_concat] at hpassage
          rcases List.mem_append.mp hpassage with hfront | hlast
          · exact List.mem_append_left _ (ih (by simp [hopen, hfront]) htoken)
          · rw [List.mem_singleton.mp hlast] at htoken
            rcases List.mem_append.mp htoken with hbody | hbody
            · exact List.mem_append_left _ (ih (by simp [hopen]) hbody)
            · exact List.mem_append_right _ hbody
      · rw [Passage.next_eq_concat hkeyword] at hpassage
        rcases List.mem_append.mp hpassage with hfront | hlast
        · exact List.mem_append_left _ (ih hfront htoken)
        · rw [List.mem_singleton.mp hlast] at htoken
          cases htoken

/-- One move turns one more token into a heading or a part of one. -/
theorem Assembly.Move.recounts {assembly next : Assembly} {front : List Token}
    {token : Token}
    (hmove : assembly.Move token next) (hsound : assembly.phase.Sound)
    (hrecounts : assembly.phase.Recounts assembly.uri (passages front))
    (htexts : ∀ other ∈ front, other.text? ≠ some []) :
    next.phase.Recounts next.uri (passages (front ++ [token])) := by
  rw [passages_concat]
  cases hmove with
  | annotate hdoc hkind => exact hrecounts.annotate hdoc hkind
  | opens hopens => exact hopens.recounts hsound hrecounts rfl rfl
  | extend hextends =>
      exact hextends.recounts hsound hrecounts
        fun passage hpassage other hother =>
          htexts other (mem_of_mem_passages hpassage hother)

/-- What an assembly has read after a run, if no text in it is empty. -/
theorem Assembly.recounts_of_feedAll {uri : Text} {policy : TrailingComments}
    {tokens : List Token} {final : Assembly}
    (htexts : ∀ token ∈ tokens, token.text? ≠ some [])
    (hrun : (start uri policy).feedAll tokens = .ok final) :
    final.phase.Recounts uri (passages tokens) := by
  let invariant (front : List Token) (assembly : Assembly) : Prop :=
    (∀ token ∈ front, token.text? ≠ some []) ∧ assembly.uri = uri ∧
      assembly.phase.Sound ∧ assembly.phase.Recounts uri (passages front)
  suffices hfinal : invariant tokens final from hfinal.2.2.2
  apply feedAll_induction hrun ⟨nofun, rfl, trivial, .inl ⟨rfl, rfl⟩⟩
  rintro front token assembly next htoken ⟨hfront, rfl, hsound, hrecounts⟩ hmove
  refine ⟨?_, hmove.uri_eq, hmove.sound hsound, ?_⟩
  · intro other hother
    rcases List.mem_append.mp hother with hother | hother
    · exact hfront other hother
    · rw [List.mem_singleton.mp hother]
      exact htexts token htoken
  · rw [← hmove.uri_eq]
    exact hmove.recounts hsound hrecounts hfront

theorem Passage.map_opening_of_yields {uri : Text} {passages : List Passage}
    {headings : List Heading} (hyields : List.Forall₂ (Yields uri) passages headings) :
    headings.map (fun heading => (heading.node.line, heading.opening)) =
      passages.map fun passage => (passage.line, passage.opening) := by
  induction hyields with
  | nil => rfl
  | cons hyields _ ih =>
      rw [List.map_cons, List.map_cons, ih, hyields.line_eq, hyields.opening_eq]

/-- The headings of a document that is read are those of its passages. -/
theorem forall₂_yields_of_parse {config : Config} {uri document : Text}
    {feature : Feature}
    (hparse : parse config uri document = .ok feature) :
    List.Forall₂ (Passage.Yields uri) (passages (scan config.keywords document).tokens)
      feature.headings := by
  obtain ⟨final, hrun, hdoc, hheadings⟩ := exists_run_of_parse hparse
  have htexts :
      ∀ token ∈ (scan config.keywords document).tokens, token.text? ≠ some [] := by
    intro token htoken hsaid
    exact ne_nil_of_text_mem_scan htoken (Token.text?_eq_some.mp hsaid) rfl
  rw [← hheadings]
  exact (Assembly.recounts_of_feedAll htexts hrun).yields hdoc

/-- Every heading of a document that is read is opened by a keyword, and every keyword
opens one. -/
theorem map_opening_of_parse {config : Config} {uri document : Text} {feature : Feature}
    (hparse : parse config uri document = .ok feature) :
    feature.headings.map (fun heading => (heading.node.line, heading.opening)) =
      (scan config.keywords document).tokens.filterMap Token.keyword? := by
  rw [Passage.map_opening_of_yields (forall₂_yields_of_parse hparse),
    map_opening_passages]

/-- A document that is read has one heading for each keyword, in the order of the
keywords, and each heading says what its passage says. -/
theorem parse_yields_headings {config : Config} {uri document : Text}
    {feature : Feature}
    (hparse : parse config uri document = .ok feature) :
    let tokens := (scan config.keywords document).tokens
    feature.headings.map (fun heading => (heading.node.line, heading.opening)) =
        tokens.filterMap Token.keyword? ∧
      List.Forall₂ (Passage.Yields uri) (passages tokens) feature.headings := by
  intro tokens
  have hyields := forall₂_yields_of_parse hparse
  refine ⟨?_, hyields⟩
  rw [Passage.map_opening_of_yields hyields, map_opening_passages]

theorem sampleDocument_yields_headings :
    parse {} "u".toList sampleDocument = .ok sampleFeature ∧
      List.Forall₂ (Passage.Yields "u".toList)
        (passages (scan .english sampleDocument).tokens) sampleFeature.headings :=
  ⟨parse_sampleDocument, (parse_yields_headings parse_sampleDocument).2⟩

end Gherkin
