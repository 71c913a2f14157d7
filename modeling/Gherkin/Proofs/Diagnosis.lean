import Gherkin.Proofs.Resumption

/-!
# What a diagnostic points at

There are three ways for a document not to be read.  A token is rejected: then its line
is the one reported, and nothing below that line matters, not even a doc string that is
never closed.  A doc string is open at the end: then every token was accepted, and the
line reported is that of the last fence.  The feature is missing at the end: then the
last line is reported, or the first if there is none.
-/

namespace Gherkin

/-- A run fails at the first token that is rejected. -/
theorem Assembly.feedAll_eq_error_iff {start : Assembly} {tokens : List Token}
    {diagnostic : Diagnostic} :
    start.feedAll tokens = .error diagnostic ↔
      ∃ front token back reached left, tokens = front ++ token :: back ∧
        start.feedAll front = .ok reached ∧
        reached.feed token = .rejected left diagnostic := by
  constructor
  · intro hrun
    induction tokens generalizing start with
    | nil => cases hrun
    | cons token tokens ih =>
        rw [feedAll_cons] at hrun
        rcases hfed : start.feed token with next | ⟨left, reported⟩ <;>
          simp only [hfed] at hrun
        · obtain ⟨front, other, back, reached, left, rfl, hfront, hrejected⟩ := ih hrun
          refine ⟨token :: front, other, back, reached, left, rfl, ?_, hrejected⟩
          rw [feedAll_cons, hfed]
          exact hfront
        · exact ⟨[], token, tokens, start, left, rfl, rfl, Except.error.inj hrun ▸ hfed⟩
  · rintro ⟨front, token, back, reached, left, rfl, hfront, hfed⟩
    rw [feedAll_append, hfront, Except.bind, feedAll_cons, hfed]

/-- What is missing at the end is reported at the last line. -/
theorem Assembly.line_of_finish {assembly : Assembly} {diagnostic : Diagnostic}
    (hfinish : assembly.finish = .error diagnostic) :
    diagnostic.line = max assembly.lastLine 1 := by
  unfold finish at hfinish
  dsimp only at hfinish
  split at hfinish
  · rw [← Except.error.inj hfinish]
  · rw [← Except.error.inj hfinish]
  · split at hfinish <;> cases hfinish

/-- Every token of a document stands on the line behind those of the tokens above. -/
theorem line_of_scan_eq_append {keywords : KeywordTable} {document : Text}
    {front back : List Token} {token : Token}
    (htokens : (scan keywords document).tokens = front ++ token :: back) :
    token.line = front.length + 1 ∧ token.line ≤ document.lines.length := by
  have hlines := Scanner.map_line_scanLines keywords 0 none document.lines
  rw [← scan_eq_scanLines, htokens, List.map_append, List.map_cons] at hlines
  have hlength := congrArg List.length hlines
  rw [List.length_append, List.length_cons, List.length_map, List.length_range']
    at hlength
  have hbound : front.length < document.lines.length := by omega
  have hline := congrArg (·[front.length]?) hlines
  simp only [List.getElem?_append_right, List.length_map, Nat.le_refl, Nat.sub_self,
    List.getElem?_cons_zero, List.getElem?_range' hbound, Option.some.injEq] at hline
  omega

/-- Equal first lines give equal first tokens. -/
theorem take_tokens_scan {document other : Text} {count : Nat}
    (hlines : other.lines.take count = document.lines.take count)
    (keywords : KeywordTable) :
    (scan keywords other).tokens.take count =
      (scan keywords document).tokens.take count := by
  rw [scan_eq_scanLines, scan_eq_scanLines, Scanner.take_tokens_scanLines, hlines,
    Scanner.take_tokens_scanLines]

section

variable (config : Config) (uri document : Text)

/-- The token of the line reported is rejected, behind those of all lines above it. -/
def Rejects (diagnostic : Diagnostic) : Prop :=
  ∃ front token back reached left,
    (scan config.keywords document).tokens = front ++ token :: back ∧
      front.length + 1 = diagnostic.line ∧ token.line = diagnostic.line ∧
      (Assembly.start uri config.trailingComments).feedAll front = .ok reached ∧
      reached.feed token = .rejected left diagnostic

/-- Every token is accepted, and the line reported is that of the last fence, which
opens a doc string with nothing but content behind it. -/
def EndsInDocString (diagnostic : Diagnostic) : Prop :=
  ∃ front back docs doc final,
    (scan config.keywords document).tokens = front ++ back ∧
      (scan config.keywords document).fault? = some diagnostic ∧
      (Assembly.start uri config.trailingComments).feedAll (front ++ back) = .ok final ∧
      DocStrings front docs ∧ OpenDoc.Spans doc back ∧
      diagnostic = ⟨doc.line, .unterminatedDocString doc.line⟩

/-- Every token is accepted outside doc strings, and there is no feature to finish. -/
def LacksFeature (diagnostic : Diagnostic) : Prop :=
  ∃ final,
    (Assembly.start uri config.trailingComments).feedAll
        (scan config.keywords document).tokens = .ok final ∧
      (scan config.keywords document).fault? = none ∧
      final.finish = .error diagnostic ∧
      diagnostic = ⟨max 1 document.lines.length, .missingFeature⟩

end

variable {config : Config} {uri document : Text} {diagnostic : Diagnostic}

theorem parse_of_feedAll_eq_error
    (hrun : (Assembly.start uri config.trailingComments).feedAll
      (scan config.keywords document).tokens = .error diagnostic) :
    parse config uri document = .error diagnostic := by
  simp only [parse, hrun]

/-- Where a token is rejected, its line is in the document and the lines up to it decide
what is reported. -/
theorem Rejects.decided (hrejects : Rejects config uri document diagnostic) :
    (1 ≤ diagnostic.line ∧ diagnostic.line ≤ document.lines.length) ∧
      ∀ other : Text,
        other.lines.take diagnostic.line = document.lines.take diagnostic.line →
          parse config uri other = .error diagnostic := by
  obtain ⟨front, token, back, reached, left, htokens, -, hline, hfront, hfed⟩ :=
    hrejects
  obtain ⟨hnumber, hbound⟩ := line_of_scan_eq_append htokens
  rw [← hline]
  refine ⟨⟨by omega, hbound⟩, fun other hlines => parse_of_feedAll_eq_error ?_⟩
  have hcount : (front ++ [token]).length = token.line := by
    rw [hnumber, List.length_append, List.length_singleton]
  have htake :
      (scan config.keywords other).tokens.take token.line = front ++ [token] := by
    rw [take_tokens_scan hlines, htokens, List.append_cons, ← hcount, List.take_left]
  rw [← List.take_append_drop token.line (scan config.keywords other).tokens, htake]
  exact Assembly.feedAll_eq_error_iff.mpr
    ⟨front, token, _, reached, left, List.append_assoc _ _ _, hfront, hfed⟩

theorem rejects_of_feedAll_eq_error
    (hrun : (Assembly.start uri config.trailingComments).feedAll
      (scan config.keywords document).tokens = .error diagnostic) :
    Rejects config uri document diagnostic := by
  obtain ⟨front, token, back, reached, left, htokens, hfront, hfed⟩ :=
    Assembly.feedAll_eq_error_iff.mp hrun
  obtain ⟨hnumber, -⟩ := line_of_scan_eq_append htokens
  obtain ⟨cause, -, rfl⟩ := Assembly.exists_refusal_of_feed hfed
  exact ⟨front, token, back, reached, left, htokens, hnumber.symm, rfl, hfront, hfed⟩

theorem endsInDocString_of_fault?_eq_some {final : Assembly}
    (hrun : (Assembly.start uri config.trailingComments).feedAll
      (scan config.keywords document).tokens = .ok final)
    (hfault : (scan config.keywords document).fault? = some diagnostic) :
    EndsInDocString config uri document diagnostic := by
  have hbehind := hfault
  rw [scan_eq_scanLines, Scanner.fault?_scanLines] at hbehind
  obtain ⟨opened, hopened, rfl⟩ := Option.map_eq_some_iff.mp hbehind
  have hbrackets : Brackets (scan config.keywords document).tokens (some opened) :=
    hopened ▸ Brackets.of_scanLines
  generalize htokens : (scan config.keywords document).tokens = tokens at hbrackets
  cases hbrackets with
  | opened hdocs hspans =>
      exact ⟨_, _, _, _, final, htokens, hfault, htokens ▸ hrun, hdocs, hspans, rfl⟩

theorem EndsInDocString.line_bounds
    (hends : EndsInDocString config uri document diagnostic) :
    1 ≤ diagnostic.line ∧ diagnostic.line ≤ document.lines.length := by
  obtain ⟨front, back, -, doc, -, htokens, -, -, -, ⟨contents, rfl, -⟩, rfl⟩ := hends
  obtain ⟨hnumber, hbound⟩ := line_of_scan_eq_append htokens
  exact ⟨by dsimp only at hnumber ⊢; omega, hbound⟩

theorem lacksFeature_of_finish {final : Assembly}
    (hrun : (Assembly.start uri config.trailingComments).feedAll
      (scan config.keywords document).tokens = .ok final)
    (hfault : (scan config.keywords document).fault? = none)
    (hfinish : final.finish = .error diagnostic) :
    LacksFeature config uri document diagnostic := by
  obtain ⟨scanner, hopened, hlock⟩ := lockstep_of_feedAll hrun hfault
  have hcause := hlock.cause_of_finish hopened hfinish
  have hlast : final.lastLine = 0 + document.lines.length :=
    Assembly.lastLine_of_feedAll hrun rfl
  have hline : diagnostic.line = max 1 document.lines.length := by
    rw [Assembly.line_of_finish hfinish, hlast, Nat.zero_add, Nat.max_comm]
  refine ⟨final, hrun, hfault, hfinish, ?_⟩
  rw [← hline, ← hcause]

theorem LacksFeature.line_eq (hlacks : LacksFeature config uri document diagnostic) :
    diagnostic.line = max 1 document.lines.length := by
  obtain ⟨-, -, -, -, rfl⟩ := hlacks
  rfl

/-- These are the ways for a document not to be read. -/
theorem parse_eq_error_iff :
    parse config uri document = .error diagnostic ↔
      Rejects config uri document diagnostic ∨
        EndsInDocString config uri document diagnostic ∨
        LacksFeature config uri document diagnostic := by
  constructor
  · intro hparse
    rcases hrun : (Assembly.start uri config.trailingComments).feedAll
        (scan config.keywords document).tokens with reported | final
    · have hread := parse_of_feedAll_eq_error hrun
      obtain rfl := Except.error.inj (hread.symm.trans hparse)
      exact .inl (rejects_of_feedAll_eq_error hrun)
    rcases hfault : (scan config.keywords document).fault? with _ | reported
    · have hfinish : final.finish = .error diagnostic := by
        simpa only [parse, hrun, hfault] using hparse
      exact .inr (.inr (lacksFeature_of_finish hrun hfault hfinish))
    · have hreported : reported = diagnostic := by
        simpa only [parse, hrun, hfault, Except.error.injEq] using hparse
      exact .inr (.inl (endsInDocString_of_fault?_eq_some hrun (hreported ▸ hfault)))
  · rintro (hrejects | hends | hlacks)
    · exact hrejects.decided.2 document rfl
    · obtain ⟨front, back, docs, doc, final, htokens, hfault, hrun, -⟩ := hends
      rw [← htokens] at hrun
      simp only [parse, hrun, hfault]
    · obtain ⟨final, hrun, hfault, hfinish, -⟩ := hlacks
      simp only [parse, hrun, hfault, hfinish]

/-- A document that is not read fails at the first line whose token is rejected, and
nothing below that line changes what is reported.  If no token is rejected, it ends in
the doc string of its last fence, or it has no feature.  The line reported is always one
of the document, or the first. -/
theorem parse_fails_fast (hparse : parse config uri document = .error diagnostic) :
    (1 ≤ diagnostic.line ∧ diagnostic.line ≤ max 1 document.lines.length) ∧
      (Rejects config uri document diagnostic ∧
          (∀ other : Text,
            other.lines.take diagnostic.line = document.lines.take diagnostic.line →
              parse config uri other = .error diagnostic) ∨
        EndsInDocString config uri document diagnostic ∨
        LacksFeature config uri document diagnostic) := by
  rcases parse_eq_error_iff.mp hparse with hrejects | hends | hlacks
  · obtain ⟨⟨hfirst, hlast⟩, hother⟩ := hrejects.decided
    exact ⟨⟨hfirst, hlast.trans (Nat.le_max_right _ _)⟩, .inl ⟨hrejects, hother⟩⟩
  · obtain ⟨hfirst, hlast⟩ := hends.line_bounds
    exact ⟨⟨hfirst, hlast.trans (Nat.le_max_right _ _)⟩, .inr (.inl hends)⟩
  · exact ⟨⟨hlacks.line_eq ▸ Nat.le_max_left _ _, hlacks.line_eq.le⟩,
      .inr (.inr hlacks)⟩

/-- A document whose second line has no place. -/
def unownedRowDocument : Text :=
  "Feature: F\n| a |\nScenario: S\n".toList

/-- The same two lines in front of a doc string that is never closed. -/
def unownedRowInFront : Text :=
  "Feature: F\r\n| a |\r\nGiven x\n\x60\x60\x60\n".toList

theorem parse_fails_fast_unownedRowDocument :
    parse {} "u".toList unownedRowDocument =
        .error ⟨2, .unexpectedContent "table row" "without a preceding step"⟩ ∧
      Rejects {} "u".toList unownedRowDocument
        ⟨2, .unexpectedContent "table row" "without a preceding step"⟩ ∧
      parse {} "u".toList unownedRowInFront =
        .error ⟨2, .unexpectedContent "table row" "without a preceding step"⟩ := by
  have hparse : parse {} "u".toList unownedRowDocument =
      .error ⟨2, .unexpectedContent "table row" "without a preceding step"⟩ := rfl
  obtain ⟨-, ⟨hrejects, hother⟩ | hends | hlacks⟩ := parse_fails_fast hparse
  · have hlines : unownedRowInFront.lines.take 2 = unownedRowDocument.lines.take 2 := by
      decide
    exact ⟨hparse, hrejects, hother unownedRowInFront hlines⟩
  · obtain ⟨_, _, _, _, _, -, -, -, -, -, hunclosed⟩ := hends
    cases (Diagnostic.mk.inj hunclosed).2
  · obtain ⟨-, -, -, -, hmissing⟩ := hlacks
    cases hmissing

end Gherkin
