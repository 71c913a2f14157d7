import Gherkin.Parse
import Gherkin.Proofs.Assembly.Refusal
import Gherkin.Proofs.Cells
import Gherkin.Proofs.Token.Scanned

/-!
# The scanner and the assembly keep step

A scanner and an assembly each remember for themselves whether a doc string is open.
The scanner goes by the fences alone.  The assembly passes over everything in front of
the feature, and it takes a fence only where a step is open.  Reading a document drives
both, one token at a time, and at every point on the way they agree: either the feature
is still missing, or the same doc string is open on both sides.  So most of what an
assembly could be told about doc strings never happens to it.
-/

namespace Gherkin

namespace OpenDoc

/-- The fence that a scanner has open while the doc string is open. -/
def openFence (doc : OpenDoc) : OpenFence :=
  ⟨doc.opening.fence, doc.line⟩

end OpenDoc

/-! ## What one line does to a scanner -/

namespace OpenFence

/-- A line of the given kind takes the open fence to the next one. -/
inductive Reads (number : Nat) : Option OpenFence → LineKind → Option OpenFence → Prop
  | closing {opened : OpenFence} {closing : FenceLine}
      (hfence : closing.fence = opened.fence) :
      Reads number (some opened) (.fence closing) none
  | content {opened : OpenFence} {text : Text} :
      Reads number (some opened) (.content text) (some opened)
  | opening {opening : FenceLine} :
      Reads number none (.fence opening) (some ⟨opening.fence, number⟩)
  | outside {kind : LineKind} (hfence : ∀ opening, kind ≠ .fence opening)
      (hcontent : ∀ text, kind ≠ .content text)
      (hrow : ∀ raw, kind = .tableRow raw →
        Cells.decode raw ≠ .error .noOpeningPipe) :
      Reads number none kind none

/-- Behind an annotation no fence is open. -/
theorem Reads.after?_eq_none_of_isAnnotation {number : Nat}
    {opened? after? : Option OpenFence} {kind : LineKind}
    (hreads : Reads number opened? kind after?) (hkind : kind.IsAnnotation) :
    after? = none := by
  cases hreads with
  | closing | content | opening => exact hkind.elim
  | outside => rfl

end OpenFence

namespace LineKind

variable {keywords : KeywordTable} {line : Text}

/-- A line that is taken for a row starts with a pipe. -/
theorem decode_ne_noOpeningPipe_of_ofLine {raw : Text}
    (hkind : ofLine keywords line = tableRow raw) :
    Cells.decode raw ≠ .error .noOpeningPipe := by
  simp only [ofLine] at hkind
  split at hkind
  · cases hkind
  · split at hkind
    · cases hkind
    · cases hkind
    · next rest htrimmed =>
        rw [← tableRow.inj hkind, htrimmed]
        exact Cells.decode_pipe_ne_noOpeningPipe rest
    · split at hkind
      · cases hkind
      · split at hkind <;> cases hkind

end LineKind

theorem FenceLine.fence_of_closing? {fence : Fence} {line : Text} {closing : FenceLine}
    (hclosing : closing? fence line = some closing) : closing.fence = fence := by
  unfold closing? at hclosing
  split at hclosing
  · rw [← Option.some.inj hclosing]
  · cases hclosing

/-- Every line that a scanner reads is one of these. -/
theorem OpenFence.reads_readLine (keywords : KeywordTable) (number : Nat)
    (opened? : Option OpenFence) (line : Text) :
    Reads number opened? (readLine keywords number opened? line).1
      (readLine keywords number opened? line).2 := by
  cases opened? with
  | some opened =>
      simp only [readLine, LineKind.ofContentLine]
      rcases hclosing : FenceLine.closing? opened.fence line with _ | closing
      · exact .content
      · exact .closing (FenceLine.fence_of_closing? hclosing)
  | none =>
      simp only [readLine]
      split
      · exact .opening
      · next hfence =>
          exact .outside hfence LineKind.ofLine_ne_content
            fun raw => LineKind.decode_ne_noOpeningPipe_of_ofLine

theorem Scanner.reads_of_next? {scanner after : Scanner} {token : Token}
    (hnext : scanner.next? = (some (.ok token), after)) :
    OpenFence.Reads token.line scanner.opened? token.kind after.opened? := by
  rcases hrest : scanner.rest with _ | ⟨line, rest⟩
  · simp [next?, hrest] at hnext
  · simp only [next?, hrest, Prod.mk.injEq, Option.some.injEq, Except.ok.injEq]
      at hnext
    obtain ⟨rfl, rfl⟩ := hnext
    exact OpenFence.reads_readLine _ _ _ _

/-- A scanner reports the doc string that is open behind the last line. -/
theorem Scanner.exists_opened_of_next?_eq_error {scanner : Scanner}
    {diagnostic : Diagnostic} (hnext : scanner.next?.1 = some (.error diagnostic)) :
    ∃ opened : OpenFence, opened.diagnostic = diagnostic := by
  rcases hrest : scanner.rest with _ | ⟨line, rest⟩ <;>
    simp only [next?, hrest] at hnext
  · obtain ⟨opened, -, hopened⟩ := Option.map_eq_some_iff.mp hnext
    exact ⟨opened, Except.error.inj hopened⟩
  · cases Option.some.inj hnext

theorem Scanner.opened?_of_next?_eq_none {scanner : Scanner}
    (hnext : scanner.next?.1 = none) : scanner.opened? = none := by
  rcases hrest : scanner.rest with _ | ⟨line, rest⟩ <;>
    simp only [next?, hrest] at hnext
  · exact Option.map_eq_none_iff.mp hnext
  · cases hnext

/-! ## Keeping step -/

/-- The feature is still missing, or the same doc string is open on both sides. -/
def Lockstep (scanner : Scanner) (assembly : Assembly) : Prop :=
  assembly.phase = .awaiting ∨
    assembly.phase.doc?.map OpenDoc.openFence = scanner.opened?

namespace Phase

variable {number : Nat} {node : Node} {phase next : Phase} {kind : LineKind}
  {opened? after? : Option OpenFence}

/-- Lines that open a construct are read outside doc strings. -/
theorem Opens.after?_eq_none (hopens : phase.Opens node kind next)
    (hreads : OpenFence.Reads number opened? kind after?) : after? = none := by
  cases hreads with
  | closing | outside => rfl
  | content | opening => cases hopens

/-- What extends the phase does to its doc string what the line does to the fence. -/
theorem Extends.doc?_eq (hextends : phase.Extends number kind next)
    (hreads : OpenFence.Reads number opened? kind after?)
    (hopened : phase.doc?.map OpenDoc.openFence = opened?) :
    next = .awaiting ∨ next.doc?.map OpenDoc.openFence = after? := by
  cases hextends with
  | pass => exact .inl rfl
  | featureText | containerText | groupText =>
      cases hreads with
      | outside => exact .inr rfl
  | opening hslot =>
      rw [doc?_body_eq_none_iff.mpr hslot] at hopened
      cases hreads with
      | closing => cases hopened
      | opening => exact .inr rfl
      | outside hfence => exact absurd rfl (hfence _)
  | content =>
      cases hreads with
      | content => exact .inr hopened
      | outside _ hcontent => exact absurd rfl (hcontent _)
  | closing =>
      cases hreads with
      | closing => exact .inr rfl
      | opening => cases hopened
      | outside => exact .inr rfl

end Phase

variable {scanner after : Scanner} {assembly next left : Assembly} {token : Token}

/-- A token that is accepted keeps the two in step. -/
theorem Lockstep.of_accepted (hlock : Lockstep scanner assembly)
    (hscanned : scanner.next? = (some (.ok token), after))
    (hfed : assembly.feed token = .accepted next) : Lockstep after next := by
  have hreads := Scanner.reads_of_next? hscanned
  cases Assembly.feed_eq_accepted_iff.mp hfed with
  | annotate hdoc hkind =>
      refine .inr ?_
      rw [hreads.after?_eq_none_of_isAnnotation hkind, hdoc]
      rfl
  | opens hopens =>
      refine .inr ?_
      rw [hopens.after?_eq_none hreads, hopens.doc?_next_eq_none]
      rfl
  | extend hextends =>
      rcases hlock with hphase | hopened
      · rw [hphase] at hextends
        generalize token.kind = kind at hextends
        cases hextends with
        | pass => exact .inl rfl
      · exact hextends.doc?_eq hreads hopened

/-- What is never wrong with a document that a scanner reads. -/
def Cause.IsOutOfStep : Cause → Prop
  | .unexpectedEnd _ => True
  | .unexpectedContent found context =>
      found = "doc string content" ∨ found = "line" ∧ context = "inside a doc string"
  | .malformedRow reason => reason = RowFault.noOpeningPipe.reason
  | _ => False

/-- A doc string is open for the scanner if it is for the assembly. -/
theorem Lockstep.opened?_eq_some {doc : OpenDoc} (hlock : Lockstep scanner assembly)
    (hdoc : assembly.phase.doc? = some doc) : scanner.opened? = some doc.openFence := by
  rcases hlock with hphase | hopened
  · rw [hphase] at hdoc
    cases hdoc
  · rw [← hopened, hdoc]
    rfl

theorem Lockstep.doc?_eq_none (hlock : Lockstep scanner assembly)
    (hopened : scanner.opened? = none) : assembly.phase.doc? = none := by
  rcases hdoc : assembly.phase.doc? with _ | doc
  · rfl
  · rw [hlock.opened?_eq_some hdoc] at hopened
    cases hopened

/-- What has no place has none for a reason other than doc strings. -/
theorem Lockstep.not_isOutOfStep_of_refuses {number : Nat} {kind : LineKind}
    {after? : Option OpenFence} {cause : Cause} (hlock : Lockstep scanner assembly)
    (hreads : OpenFence.Reads number scanner.opened? kind after?)
    (hrefuses : assembly.phase.Refuses kind cause) :
    ¬ cause.IsOutOfStep ∧ ∀ openedAt, cause ≠ .unterminatedDocString openedAt := by
  generalize hstart : assembly.phase = phase at hrefuses
  cases hrefuses with
  | missing | misplaced => exact ⟨id, nofun⟩
  | textBehindStep | textBehindRow | row | fence =>
      exact ⟨by simp [Cause.IsOutOfStep], nofun⟩
  | @malformed _ raw fault hcells =>
      refine ⟨fun hreason => ?_, nofun⟩
      have hfault : fault = .noOpeningPipe := by
        cases fault with
        | noOpeningPipe => rfl
        | noClosingPipe | noCells =>
            simp [Cause.IsOutOfStep, RowFault.reason] at hreason
      generalize scanner.opened? = opened? at hreads
      cases hreads with
      | outside _ _ hrow => exact hrow raw rfl (hfault ▸ hcells)
  | content hphase hdoc =>
      have hopened := hlock.resolve_left (hstart ▸ hphase)
      rw [hstart, hdoc] at hopened
      rw [← hopened] at hreads
      cases hreads with
      | outside _ hcontent => exact absurd rfl (hcontent _)
  | inDoc hdoc hcontent hfence =>
      rw [hlock.opened?_eq_some (hstart ▸ hdoc)] at hreads
      cases hreads with
      | closing => exact absurd rfl (hfence _)
      | content => exact absurd rfl (hcontent _)

/-- A token that is rejected has nothing to do with doc strings. -/
theorem Lockstep.not_isOutOfStep_of_rejected {diagnostic : Diagnostic}
    (hlock : Lockstep scanner assembly)
    (hscanned : scanner.next? = (some (.ok token), after))
    (hfed : assembly.feed token = .rejected left diagnostic) :
    ¬ diagnostic.cause.IsOutOfStep ∧
      ∀ openedAt, diagnostic.cause ≠ .unterminatedDocString openedAt := by
  have hreads := Scanner.reads_of_next? hscanned
  obtain ⟨cause, hrefusal, rfl⟩ := Assembly.exists_refusal_of_feed hfed
  cases hrefusal with
  | noPlace hrefuses => exact hlock.not_isOutOfStep_of_refuses hreads hrefuses
  | width => exact ⟨id, nofun⟩
  | @otherFence _ _ _ doc closing hphase hkind hfence =>
      have hdoc : assembly.phase.doc? = some doc := by rw [hphase]; rfl
      rw [hlock.opened?_eq_some hdoc, hkind] at hreads
      generalize after.opened? = after? at hreads
      cases hreads with
      | closing hsame => exact absurd hsame hfence

/-- Where the scanner is through, the assembly can only lack the feature. -/
theorem Lockstep.cause_of_finish {diagnostic : Diagnostic}
    (hlock : Lockstep scanner assembly) (hopened : scanner.opened? = none)
    (hfinish : assembly.finish = .error diagnostic) :
    diagnostic.cause = .missingFeature := by
  unfold Assembly.finish at hfinish
  rw [hlock.doc?_eq_none hopened] at hfinish
  rcases hclosed : assembly.phase.feature? with _ | feature <;>
    simp only [hclosed] at hfinish
  · rw [← Except.error.inj hfinish]
  · cases hpolicy : assembly.policy <;> rw [hpolicy] at hfinish <;> cases hfinish

/-! ## Reading a document step by step -/

/-- The points that reading a document passes: the scanner between two lines and the
assembly that has taken the tokens of the lines behind it. -/
inductive Passes (config : Config) (uri document : Text) : Scanner → Assembly → Prop
  | start :
      Passes config uri document (Scanner.ofText config.keywords document)
        (Assembly.start uri config.trailingComments)
  | step {scanner after : Scanner} {assembly next : Assembly} {token : Token}
      (hpasses : Passes config uri document scanner assembly)
      (hscanned : scanner.next? = (some (.ok token), after))
      (hfed : assembly.feed token = .accepted next) :
      Passes config uri document after next

/-- Reading ends where a token is rejected, where the scanner reports an open doc
string, or where there is nothing left to read. -/
inductive EndsWith (scanner : Scanner) (assembly : Assembly) :
    Except Diagnostic Feature → Prop
  | rejected {after : Scanner} {token : Token} {left : Assembly}
      {diagnostic : Diagnostic}
      (hscanned : scanner.next? = (some (.ok token), after))
      (hfed : assembly.feed token = .rejected left diagnostic) :
      EndsWith scanner assembly (.error diagnostic)
  | unterminated {diagnostic : Diagnostic}
      (hscanned : scanner.next?.1 = some (.error diagnostic)) :
      EndsWith scanner assembly (.error diagnostic)
  | finished (hscanned : scanner.next?.1 = none) :
      EndsWith scanner assembly assembly.finish

/-- What reading comes to from a point on. -/
def readOn (scanner : Scanner) (assembly : Assembly) : Except Diagnostic Feature :=
  match assembly.feedAll scanner.remaining.tokens with
  | .error diagnostic => .error diagnostic
  | .ok final =>
      match scanner.remaining.fault? with
      | some diagnostic => .error diagnostic
      | none => final.finish

theorem parse_eq_readOn (config : Config) (uri document : Text) :
    parse config uri document =
      readOn (Scanner.ofText config.keywords document)
        (Assembly.start uri config.trailingComments) := rfl

theorem readOn_of_accepted (hscanned : scanner.next? = (some (.ok token), after))
    (hfed : assembly.feed token = .accepted next) :
    readOn scanner assembly = readOn after next := by
  simp only [readOn, Scanner.remaining_of_next? hscanned, Assembly.feedAll_cons, hfed]

theorem endsWith_of_rejected {diagnostic : Diagnostic}
    (hscanned : scanner.next? = (some (.ok token), after))
    (hfed : assembly.feed token = .rejected left diagnostic) :
    EndsWith scanner assembly (readOn scanner assembly) := by
  have hread : readOn scanner assembly = .error diagnostic := by
    simp only [readOn, Scanner.remaining_of_next? hscanned, Assembly.feedAll_cons, hfed]
  rw [hread]
  exact .rejected hscanned hfed

theorem endsWith_of_rest_nil (hrest : scanner.rest = []) :
    EndsWith scanner assembly (readOn scanner assembly) := by
  have hremaining : scanner.remaining =
      ⟨[], scanner.opened?.map OpenFence.diagnostic⟩ := by
    rw [Scanner.remaining, hrest, Scanner.scanLines]
  have hscanned := Scanner.next?_of_rest_nil hrest
  rw [hremaining] at hscanned
  rcases hopened : scanner.opened? with _ | opened <;>
    simp only [readOn, hremaining, hopened, Assembly.feedAll_nil] at hscanned ⊢
  · exact .finished hscanned
  · exact .unterminated hscanned

variable {config : Config} {uri document : Text}

/-- From every point on the way reading comes to an end. -/
theorem Passes.exists_endsWith (hpasses : Passes config uri document scanner assembly) :
    ∃ last final, Passes config uri document last final ∧
      EndsWith last final (readOn scanner assembly) := by
  -- Every step reads one line, so the lines ahead get fewer whatever the tokens do.
  generalize hrest : scanner.rest = rest
  induction rest generalizing scanner assembly with
  | nil => exact ⟨scanner, assembly, hpasses, endsWith_of_rest_nil hrest⟩
  | cons line rest ih =>
      obtain ⟨token, after, hscanned, hafter⟩ : ∃ token after,
          scanner.next? = (some (.ok token), after) ∧ after.rest = rest := by
        simp [Scanner.next?, hrest]
      rcases hfed : assembly.feed token with next | ⟨left, diagnostic⟩
      · rw [readOn_of_accepted hscanned hfed]
        exact ih (hpasses.step hscanned hfed) hafter
      · exact ⟨scanner, assembly, hpasses, endsWith_of_rejected hscanned hfed⟩

/-- At every point on the way the scanner and the assembly are in step. -/
theorem Passes.lockstep (hpasses : Passes config uri document scanner assembly) :
    Lockstep scanner assembly := by
  induction hpasses with
  | start => exact .inl rfl
  | step _ hscanned hfed ih => exact ih.of_accepted hscanned hfed

/-- Where reading ends with a diagnostic, it tells of nothing out of step. -/
theorem Lockstep.of_endsWith_error {diagnostic : Diagnostic}
    (hlock : Lockstep scanner assembly)
    (hends : EndsWith scanner assembly (.error diagnostic)) :
    ¬ diagnostic.cause.IsOutOfStep ∧
      ∀ openedAt, diagnostic.cause = .unterminatedDocString openedAt →
        diagnostic.line = openedAt ∧ scanner.next?.1 = some (.error diagnostic) := by
  generalize hresult : Except.error diagnostic = result at hends
  cases hends with
  | rejected hscanned hfed =>
      obtain rfl := Except.error.inj hresult
      obtain ⟨hcause, hclosed⟩ := hlock.not_isOutOfStep_of_rejected hscanned hfed
      exact ⟨hcause, fun openedAt hopened => absurd hopened (hclosed openedAt)⟩
  | unterminated hscanned =>
      obtain rfl := Except.error.inj hresult
      obtain ⟨opened, rfl⟩ := Scanner.exists_opened_of_next?_eq_error hscanned
      refine ⟨id, fun openedAt hopened => ⟨?_, hscanned⟩⟩
      exact Cause.unterminatedDocString.inj hopened
  | finished hscanned =>
      have hcause := hlock.cause_of_finish (Scanner.opened?_of_next?_eq_none hscanned)
        hresult.symm
      rw [hcause]
      exact ⟨id, nofun⟩

/-- Reading a document passes only points where the scanner and the assembly are in
step, and ends at one of them.  So no diagnostic tells of the two being out of step, and
that a doc string is not closed is reported by the scanner, at the line of its fence. -/
theorem parse_lockstep (config : Config) (uri document : Text) :
    (∀ scanner assembly, Passes config uri document scanner assembly →
      Lockstep scanner assembly) ∧
    (∃ scanner assembly, Passes config uri document scanner assembly ∧
      EndsWith scanner assembly (parse config uri document)) ∧
    ∀ diagnostic, parse config uri document = .error diagnostic →
      ¬ diagnostic.cause.IsOutOfStep ∧
        ∀ openedAt, diagnostic.cause = .unterminatedDocString openedAt →
          diagnostic.line = openedAt ∧
            ∃ scanner assembly, Passes config uri document scanner assembly ∧
              scanner.next?.1 = some (.error diagnostic) := by
  have hstart : Passes config uri document _ _ := .start
  have hread := hstart.exists_endsWith
  rw [← parse_eq_readOn] at hread
  refine ⟨fun scanner assembly hpasses => hpasses.lockstep, hread, ?_⟩
  intro diagnostic hparse
  obtain ⟨scanner, assembly, hpasses, hends⟩ := hread
  rw [hparse] at hends
  obtain ⟨hcause, hunclosed⟩ := hpasses.lockstep.of_endsWith_error hends
  refine ⟨hcause, fun openedAt hopened => ?_⟩
  obtain ⟨hline, hscanned⟩ := hunclosed openedAt hopened
  exact ⟨hline, scanner, assembly, hpasses, hscanned⟩

/-- A document that ends inside a doc string. -/
def unclosedDocument : Text :=
  "Feature: F\nScenario: S\nGiven x\n\"\"\"\n\x60\x60\x60\n".toList

theorem parse_lockstep_unclosedDocument :
    parse {} "u".toList unclosedDocument = .error ⟨4, .unterminatedDocString 4⟩ ∧
      ∃ scanner assembly, Passes {} "u".toList unclosedDocument scanner assembly ∧
        Lockstep scanner assembly ∧
          scanner.next?.1 = some (.error ⟨4, .unterminatedDocString 4⟩) := by
  have hparse :
      parse {} "u".toList unclosedDocument = .error ⟨4, .unterminatedDocString 4⟩ := rfl
  obtain ⟨hlock, -, hcause⟩ := parse_lockstep {} "u".toList unclosedDocument
  obtain ⟨-, hunclosed⟩ := hcause _ hparse
  obtain ⟨-, scanner, assembly, hpasses, hscanned⟩ := hunclosed 4 rfl
  exact ⟨hparse, scanner, assembly, hpasses, hlock _ _ hpasses, hscanned⟩

end Gherkin
